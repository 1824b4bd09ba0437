import EditionMarket.Schema
import Mathlib.Data.List.Basic

/-!
# The check of settings is a validation

The project's own check does what is known of validations. It goes through the entries of a section one by one,
so that what is shown of a section is put together from what is shown of one entry.

Main statements: `setting_meets`, an entry passes exactly if it is met, and `check_documented`.
-/

namespace EditionMarket.Schema

variable {given : Raw.Fields} {mark : Option Nat}

/-! ## Names -/

theorem nameIssues_eq_nil_iff {known : List String} :
    nameIssues known given = [] ↔
      ∀ label ∈ Listing.keys given, ∃ name ∈ known, label = .text name := by
  unfold nameIssues
  rw [List.filterMap_eq_nil_iff]
  refine forall₂_congr fun label _ => ?_
  cases label with
  | text key => simp [nameIssue?]
  | number n => simp [nameIssue?]
  | other shown => simp [nameIssue?]

/-- A section passes exactly if its names are known and its entries pass. -/
theorem sectionOf_eq_ok_iff {title : String} {shape : Shape} {default held : shape.Held}
    {build : Raw.Fields → Checked shape.Held} :
    (sectionOf title shape default build (.object given mark)).toExcept = .ok held ↔
      (∀ label ∈ Listing.keys given, ∃ name ∈ shape.names, label = .text name) ∧
        (build given).issues = [] ∧ (build given).value = held := by
  rw [Checked.toExcept_eq_ok_iff, ← nameIssues_eq_nil_iff]
  unfold sectionOf
  rw [List.append_eq_nil_iff]
  tauto

/-! ## Entries -/

/-- An entry passes exactly if it is met. -/
theorem setting_meets {σ : Type} {held : σ} (entry : Entry σ) (inner : Raw → Checked entry.shape.Held)
    (hinner : ∀ raw, check entry.shape raw = (inner raw).toExcept) :
    entry.Meets check given held ↔
      (setting given entry inner).issues = [] ∧ (setting given entry inner).value = entry.of held := by
  unfold Entry.Meets setting
  cases Listing.get? given (.text entry.name) with
  | none => simp [eq_comm]
  | some raw =>
    dsimp only
    rw [hinner, Checked.toExcept_eq_ok_iff, Checked.issuesUnder, List.map_eq_nil_iff]

/-! ## Sections -/

/-- The entries of a section, one by one. -/
theorem object_of_build {title : String} {shape : Shape} {default held : shape.Held}
    {build : Raw.Fields → Checked shape.Held}
    (hcheck : ∀ raw, check shape raw = (sectionOf title shape default build raw).toExcept)
    (hbuild : (build given).issues = [] ∧ (build given).value = held ↔
      ∀ entry ∈ shape.entries, entry.Meets check given held) :
    check shape (.object given mark) = .ok held ↔
      (∀ label ∈ Listing.keys given, ∃ name ∈ shape.names, label = .text name) ∧
        ∀ entry ∈ shape.entries, entry.Meets check given held := by
  rw [hcheck, sectionOf_eq_ok_iff, hbuild]

/-- What is asked of all entries of a section is asked of each. -/
theorem forall_entries_methods {P : Entry (Method → MethodSettings) → Prop} :
    (∀ entry ∈ Shape.methods.entries, P entry) ↔ ∀ method : Method, P (.method method) := by
  unfold Shape.entries
  rw [List.forall_mem_map]
  exact ⟨fun h method => h method (Method.mem_all method), fun h method _ => h method⟩

/-- A section that is given as an object passes exactly if its names are known and each of its entries
passes. -/
theorem check_object (shape : Shape) (held : shape.Held) (hsection : shape.entries ≠ []) :
    check shape (.object given mark) = .ok held ↔
      (∀ label ∈ Listing.keys given, ∃ name ∈ shape.names, label = .text name) ∧
        ∀ entry ∈ shape.entries, entry.Meets check given held := by
  cases shape with
  | positive | natural | text | level => exact absurd rfl hsection
  | limits =>
    refine object_of_build (fun _ => rfl) ?_
    unfold Shape.entries
    rw [List.forall_mem_cons, List.forall_mem_cons, List.forall_mem_singleton,
      setting_meets .creatorsPerAccount positive fun _ => rfl,
      setting_meets .editionsPerCreator positive fun _ => rfl,
      setting_meets .tokensPerAccount positive fun _ => rfl]
    obtain ⟨_, _, _, _, _, _⟩ := held
    simp only [List.append_eq_nil_iff, Limits.mk.injEq, Subtype.ext_iff]
    tauto
  | method =>
    refine object_of_build (fun _ => rfl) ?_
    unfold Shape.entries
    rw [List.forall_mem_cons, List.forall_mem_singleton, setting_meets .weight natural fun _ => rfl,
      setting_meets .description text fun _ => rfl]
    obtain ⟨_, _⟩ := held
    simp only [List.append_eq_nil_iff, MethodSettings.mk.injEq]
    tauto
  | methods =>
    refine object_of_build (fun _ => rfl) ?_
    rw [forall_entries_methods, List.flatMap_eq_nil_iff, funext_iff, ← forall_and]
    refine forall_congr' fun method => ?_
    rw [setting_meets (.method method) methodSettings fun _ => rfl,
      forall_prop_of_true (Method.mem_all method)]
  | market =>
    refine object_of_build (fun _ => rfl) ?_
    unfold Shape.entries
    rw [List.forall_mem_cons, List.forall_mem_singleton, setting_meets .limits limits fun _ => rfl,
      setting_meets .methods methods fun _ => rfl]
    simp only [List.append_eq_nil_iff, Prod.ext_iff]
    tauto
  | currency =>
    refine object_of_build (fun _ => rfl) ?_
    unfold Shape.entries
    rw [List.forall_mem_singleton, setting_meets .deposit natural fun _ => rfl]
    rfl
  | logging =>
    refine object_of_build (fun _ => rfl) ?_
    unfold Shape.entries
    rw [List.forall_mem_cons, List.forall_mem_cons, List.forall_mem_cons, List.forall_mem_singleton,
      setting_meets .outputFile text fun _ => rfl, setting_meets .logsDir text fun _ => rfl,
      setting_meets .recent positive fun _ => rfl, setting_meets .level level fun _ => rfl]
    obtain ⟨_, _, _, _, _⟩ := held
    simp only [List.append_eq_nil_iff, LoggingSettings.mk.injEq, Subtype.ext_iff]
    tauto
  | settings =>
    refine object_of_build (fun _ => rfl) ?_
    unfold Shape.entries
    rw [List.forall_mem_cons, List.forall_mem_cons, List.forall_mem_singleton,
      setting_meets .market market fun _ => rfl, setting_meets .currency currency fun _ => rfl,
      setting_meets .logging logging fun _ => rfl]
    obtain ⟨_, _, _, _⟩ := held
    simp only [List.append_eq_nil_iff, Settings.mk.injEq, Prod.ext_iff]
    tauto

/-- Settings without issues pass. -/
theorem check_settings {raw : Raw} (h : (settings raw).issues = []) :
    check .settings raw = .ok (settings raw).value :=
  Checked.toExcept_eq_ok_iff.2 ⟨h, rfl⟩

/-! ## Integers -/

theorem positive_eq_ok_iff {raw : Raw} {n : Int} (h : integer raw = .ok n) (held : { n : Nat // 0 < n }) :
    (positive raw).toExcept = .ok held ↔ (held.1 : Int) = n := by
  unfold positive
  rw [h]
  dsimp only
  split
  next hpos =>
    rw [Checked.toExcept_eq_ok_iff, Subtype.ext_iff]
    simp only [true_and]
    omega
  next hneg =>
    have := held.2
    rw [Checked.toExcept_eq_ok_iff]
    simp only [Checked.wrong, List.cons_ne_nil, false_and, false_iff]
    omega

/-- **The check is a validation.** -/
theorem check_documented : Validation.Documented check where
  object _ _ _ held hsection := check_object _ held hsection
  int _ held := positive_eq_ok_iff rfl held
  bool _ held := positive_eq_ok_iff rfl held
  string _ := rfl

end EditionMarket.Schema
