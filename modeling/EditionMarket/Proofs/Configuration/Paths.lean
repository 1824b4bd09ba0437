import EditionMarket.Configuration
import Mathlib.Data.List.Basic

/-!
# Overriding a setting at a path

An override goes along a path through sections, as far as there are any, and puts the setting into the last
of them. This file says what stands at paths afterwards: the setting at its own path, whatever the sections are
like. A section may stand in several places, and then it is changed in all of them; an override of a section
that stands in one place only changes nothing that does not lie on its path.

Main definitions: `Assigned`, how an override comes about, and `StandsOnce`. Main statements:
`lookup_overridden_self` and `lookup_overridden_of_apart`.
-/

namespace EditionMarket

namespace Raw

/-! ## Marks -/

mutual

/-- Where no section has the mark, nothing is replaced. -/
theorem replaceAll_of_notMem {m : Nat} (whole : Raw) :
    ∀ raw : Raw, m ∉ marks raw → replaceAll m whole raw = raw
  | .null, _ | .bool _, _ | .int _, _ | .decimal _, _ | .endless, _ | .moment, _ | .string _, _
  | .garbled, _ | .other .., _ => rfl
  | .list items, h => congrArg Raw.list (replaceItems_of_notMem whole items h)
  | .object fields mark, h => by
    unfold marks at h
    rw [List.mem_append, not_or, Option.mem_toList] at h
    unfold replaceAll
    rw [if_neg h.1, replaceFields_of_notMem whole fields h.2]

theorem replaceItems_of_notMem {m : Nat} (whole : Raw) :
    ∀ items : List Raw, m ∉ marksOfItems items → replaceItems m whole items = items
  | [], _ => rfl
  | item :: rest, h => by
    unfold marksOfItems at h
    rw [List.mem_append, not_or] at h
    unfold replaceItems
    rw [replaceAll_of_notMem whole item h.1, replaceItems_of_notMem whole rest h.2]

theorem replaceFields_of_notMem {m : Nat} (whole : Raw) :
    ∀ fields : List (Label × Raw), m ∉ marksOfFields fields →
      replaceFields m whole fields = fields
  | [], _ => rfl
  | (label, raw) :: rest, h => by
    unfold marksOfFields at h
    rw [List.mem_append, not_or] at h
    unfold replaceFields
    rw [replaceAll_of_notMem whole raw h.1, replaceFields_of_notMem whole rest h.2]

end

/-- What stands under a name has no more marks than all settings of the section. -/
theorem count_marks_le {fields : Raw.Fields} {label : Label} {inner : Raw}
    (h : Listing.get? fields label = some inner) (m : Nat) :
    (marks inner).count m ≤ (marksOfFields fields).count m := by
  induction fields with
  | nil => cases h
  | cons entry rest ih =>
    obtain ⟨name, raw⟩ := entry
    unfold Listing.get? at h ih
    rw [List.lookup_cons] at h
    unfold marksOfFields
    rw [List.count_append]
    split at h
    · cases h
      omega
    · exact Nat.le_trans (ih h) (Nat.le_add_left _ _)

/-- Where a section stands in one place, there is nothing to be replaced beside what stands under one name. -/
theorem put_replaceFields {fields : Raw.Fields} {label : Label} {inner : Raw} {m : Nat}
    (hget : Listing.get? fields label = some inner) (hinner : 0 < (marks inner).count m)
    (hone : (marksOfFields fields).count m ≤ 1) (whole next : Raw) :
    Listing.put (replaceFields m whole fields) label next = Listing.put fields label next := by
  induction fields with
  | nil => cases hget
  | cons entry rest ih =>
    obtain ⟨name, raw⟩ := entry
    unfold marksOfFields at hone
    rw [List.count_append] at hone
    unfold Listing.get? at hget
    rw [List.lookup_cons] at hget
    unfold replaceFields Listing.put
    by_cases hname : name = label
    · rw [hname, beq_self_eq_true] at hget
      cases hget
      have hrest : m ∉ marksOfFields rest := List.count_eq_zero.1 (by omega)
      rw [if_pos hname, if_pos hname, replaceFields_of_notMem whole rest hrest]
    · rw [show (label == name) = false from beq_eq_false_iff_ne.2 (Ne.symm hname)] at hget
      have hle := count_marks_le hget m
      have hraw : m ∉ marks raw := List.count_eq_zero.1 (by omega)
      rw [if_neg hname, if_neg hname, replaceAll_of_notMem whole raw hraw, ih hget (by omega)]

mutual

/-- Raised marks are no smaller than the number that they were raised by. -/
theorem le_of_mem_marks_raised {n m : Nat} : ∀ raw : Raw, m ∈ marks (raised n raw) → n ≤ m
  | .null, h | .bool _, h | .int _, h | .decimal _, h | .endless, h | .moment, h | .string _, h
  | .garbled, h | .other .., h => absurd h List.not_mem_nil
  | .list items, h => le_of_mem_marks_raisedItems items h
  | .object fields mark, h => by
    unfold raised marks at h
    rcases List.mem_append.1 h with h | h
    · obtain ⟨first, -, rfl⟩ := Option.map_eq_some_iff.1 (Option.mem_toList.1 h)
      exact Nat.le_add_left n first
    · exact le_of_mem_marks_raisedFields fields h

theorem le_of_mem_marks_raisedItems {n m : Nat} :
    ∀ items : List Raw, m ∈ marksOfItems (raisedItems n items) → n ≤ m
  | [], h => absurd h List.not_mem_nil
  | item :: rest, h =>
    (List.mem_append.1 h).elim (le_of_mem_marks_raised item) (le_of_mem_marks_raisedItems rest)

theorem le_of_mem_marks_raisedFields {n m : Nat} :
    ∀ fields : List (Label × Raw), m ∈ marksOfFields (raisedFields n fields) → n ≤ m
  | [], h => absurd h List.not_mem_nil
  | (_, raw) :: rest, h =>
    (List.mem_append.1 h).elim (le_of_mem_marks_raised raw) (le_of_mem_marks_raisedFields rest)

end

theorem lt_markBound {raw : Raw} {m : Nat} (h : m ∈ marks raw) : m < markBound raw := by
  unfold markBound
  generalize marks raw = found at h ⊢
  induction found with
  | nil => cases h
  | cons first rest ih =>
    rw [List.map_cons, List.foldr_cons]
    rcases List.mem_cons.1 h with rfl | h
    · exact Nat.le_max_left _ _
    · exact Nat.lt_of_lt_of_le (ih h) (Nat.le_max_right _ _)

/-- **The sections of a setting that is put among others are no sections of those.** -/
theorem disjoint_marks_raised (raw value : Raw) :
    List.Disjoint (marks raw) (marks (value.raised raw.markBound)) := fun _ hraw hvalue =>
  absurd (lt_markBound hraw) (Nat.not_lt.2 (le_of_mem_marks_raised value hvalue))

end Raw

namespace Configuration

/-! ## Paths -/

/-- Two paths are apart if neither is a part of the other one. -/
def Apart (first second : List String) : Prop := ¬ first <+: second ∧ ¬ second <+: first

instance (first second : List String) : Decidable (Apart first second) :=
  inferInstanceAs (Decidable (_ ∧ _))

theorem Apart.tail {part : String} {first second : List String}
    (h : Apart (part :: first) (part :: second)) : Apart first second := by
  simpa [Apart, List.cons_prefix_cons] using h

theorem not_apart_nil_left (path : List String) : ¬ Apart [] path := fun h => h.1 (List.nil_prefix)

theorem not_apart_nil_right (path : List String) : ¬ Apart path [] := fun h => h.2 (List.nil_prefix)

theorem parts_ne_nil (path : String) : parts path ≠ [] := by
  unfold parts
  rw [ne_eq, List.map_eq_nil_iff]
  exact List.splitOn_ne_nil _ _

theorem follow_cons (fields : Raw.Fields) (mark : Option Nat) (part : String) (rest : List String) :
    follow (.object fields mark) (part :: rest) =
      (Listing.get? fields (.text part)).bind fun inner => follow inner rest := by
  conv_lhs => unfold follow
  dsimp only
  cases Listing.get? fields (.text part) <;> rfl

theorem follow_nest (raw : Raw) (path : List String) : follow (nest raw path) path = some raw := by
  induction path with
  | nil => rfl
  | cons part rest ih =>
    unfold nest
    rw [follow_cons]
    show (List.lookup _ [_]).bind _ = _
    rw [List.lookup_cons, beq_self_eq_true]
    exact ih

/-- In new sections nothing else stands. -/
theorem follow_nest_of_apart (raw : Raw) {path other : List String} (h : Apart path other) :
    follow (nest raw path) other = none := by
  induction path generalizing other with
  | nil => exact absurd h (not_apart_nil_left other)
  | cons part rest ih =>
    cases other with
    | nil => exact absurd h (not_apart_nil_right _)
    | cons name others =>
      unfold nest
      rw [follow_cons]
      show (List.lookup _ [_]).bind _ = _
      rw [List.lookup_cons]
      by_cases hname : name = part
      · subst hname
        rw [beq_self_eq_true]
        exact ih h.tail
      · rw [show (Label.text name == .text part) = false from
          beq_eq_false_iff_ne.2 fun heq => hname (Label.text.inj heq)]
        rfl

/-! ## How an override comes about -/

/-- What changes wherever it stands when a section inside another one has changed: the inner one if it has a
mark, and else the one around it. -/
def marked (changed whole : Raw) : Raw := if changed.mark?.isSome then changed else whole

/-- A setting is put at the end of a path: it goes through sections as long as there are more names and there
is something under the next one, and puts the setting into the last of them. The first result is what has
become of the node, and the second one what has become of the section that changes wherever it stands. -/
inductive Assigned (value : Raw) : Raw → List String → Raw → Raw → Prop
  | here {fields : Raw.Fields} {mark : Option Nat} {part : String} {rest : List String}
      (hlast : rest = [] ∨ Listing.get? fields (.text part) = none) :
      Assigned value (.object fields mark) (part :: rest)
        (.object (Listing.put fields (.text part) (nest value rest)) mark)
        (.object (Listing.put fields (.text part) (nest value rest)) mark)
  | deeper {fields : Raw.Fields} {mark : Option Nat} {part next : String} {rest : List String}
      {inner inner' changed : Raw} (hget : Listing.get? fields (.text part) = some inner)
      (hinner : Assigned value inner (next :: rest) inner' changed) :
      Assigned value (.object fields mark) (part :: next :: rest)
        (.object (Listing.put (changed.spreadFields fields) (.text part) inner') mark)
        (marked changed (.object (Listing.put (changed.spreadFields fields) (.text part) inner') mark))

variable {value node tree changed : Raw} {path other : List String}

theorem assigned_of_assign {part : String} {rest : List String}
    (h : assign value node part rest = .ok (tree, changed)) :
    Assigned value node (part :: rest) tree changed := by
  induction rest generalizing node part tree changed with
  | nil =>
    unfold assign at h
    split at h
    · cases h
      exact .here (.inl rfl)
    · cases h
  | cons next rest ih =>
    unfold assign at h
    split at h
    case h_2 => cases h
    case h_1 fields mark =>
      cases hget : Listing.get? fields (.text part) with
      | none =>
        simp only [hget] at h
        cases h
        exact .here (.inr hget)
      | some inner =>
        simp only [hget] at h
        cases hinner : assign value inner next rest with
        | error fault =>
          rw [hinner] at h
          cases h
        | ok result =>
          rw [hinner] at h
          cases h
          exact .deeper hget (ih hinner)

/-- The mark of the section into which a setting at the end of a path is put, or of the nearest section around
it that has one. -/
def markAt? : Raw → List String → Option Nat
  | .object fields mark, part :: next :: rest =>
    match Listing.get? fields (.text part) with
    | some inner => (markAt? inner (next :: rest)).or mark
    | none => mark
  | .object _ mark, _ => mark
  | _, _ => none

/-- The section into which a setting is put stands in one place only. -/
def StandsOnce (raw : Raw.Fields) (path : String) : Prop :=
  ∀ m, markAt? (.object raw) (parts path) = some m → (Raw.marks (.object raw)).count m ≤ 1

instance (raw : Raw.Fields) (path : String) : Decidable (StandsOnce raw path) :=
  decidable_of_iff
    (∀ m ∈ markAt? (.object raw) (parts path), (Raw.marks (.object raw)).count m ≤ 1) Iff.rfl

namespace Assigned

/-- The setting stands where it was put. -/
theorem follow_self (h : Assigned value node path tree changed) : follow tree path = some value := by
  induction h with
  | here _ =>
    rw [follow_cons, Listing.get?_put_self]
    exact follow_nest value _
  | deeper _ _ ih =>
    rw [follow_cons, Listing.get?_put_self]
    exact ih

theorem mark?_changed (h : Assigned value node path tree changed) :
    changed.mark? = markAt? node path := by
  induction h with
  | @here fields mark part rest hlast =>
    cases rest with
    | nil => rfl
    | cons next rest =>
      unfold markAt?
      rw [hlast.resolve_left (List.cons_ne_nil _ _)]
      rfl
  | deeper hget _ ih =>
    unfold markAt? marked
    rw [hget]
    dsimp only
    rw [← ih]
    split
    next hsome => exact (Option.or_of_isSome hsome).symm
    next hnone => rw [Option.not_isSome_iff_eq_none.1 hnone, Option.none_or]; rfl

theorem exists_object (h : Assigned value node path tree changed) :
    ∃ fields mark, tree = .object fields mark := by
  cases h <;> exact ⟨_, _, rfl⟩

/-- The section that has changed was there before. -/
theorem count_pos (h : Assigned value node path tree changed) {m : Nat}
    (hm : changed.mark? = some m) : 0 < (Raw.marks node).count m := by
  induction h with
  | here _ =>
    cases hm
    rw [List.count_pos_iff]
    unfold Raw.marks
    simp
  | deeper hget _ ih =>
    unfold marked at hm
    unfold Raw.marks
    rw [List.count_append]
    split at hm
    · exact Nat.lt_of_lt_of_le (ih hm) (Nat.le_trans (Raw.count_marks_le hget m) (Nat.le_add_left _ _))
    · cases hm
      rw [Option.toList_some, List.count_singleton_self]
      exact Nat.lt_of_lt_of_le Nat.one_pos (Nat.le_add_right _ _)

/-- If it stands in one place only, it changes nothing beside the path. -/
theorem put_spreadFields {fields : Raw.Fields} {label : Label} {inner : Raw}
    (h : Assigned value inner path tree changed) (hget : Listing.get? fields label = some inner)
    (hone : ∀ m, changed.mark? = some m → (Raw.marksOfFields fields).count m ≤ 1) :
    Listing.put (changed.spreadFields fields) label tree = Listing.put fields label tree := by
  unfold Raw.spreadFields
  split
  next m hm => exact Raw.put_replaceFields hget (h.count_pos hm) (hone m hm) _ _
  next => rfl

/-- Apart from the path, there is what there was, if the section that has changed stands in one place
only. -/
theorem follow_of_apart (h : Assigned value node path tree changed)
    (hone : ∀ m, changed.mark? = some m → (Raw.marks node).count m ≤ 1) (hapart : Apart path other) :
    follow tree other = follow node other := by
  induction h generalizing other with
  | @here fields mark part rest hlast =>
    cases other with
    | nil => exact absurd hapart (not_apart_nil_right _)
    | cons name others =>
      rw [follow_cons, follow_cons]
      by_cases hname : name = part
      · subst hname
        rw [Listing.get?_put_self, Option.bind_some, follow_nest_of_apart value hapart.tail]
        rcases hlast with rfl | hnone
        · exact absurd hapart.tail (not_apart_nil_left others)
        · rw [hnone]
          rfl
      · rw [Listing.get?_put_of_ne _ _ fun heq => hname (Label.text.inj heq)]
  | @deeper fields mark part _ _ inner inner' changed hget hinner ih =>
    have hfields : ∀ m, changed.mark? = some m → (Raw.marksOfFields fields).count m ≤ 1 := by
      intro m hm
      have hmarked : (marked changed (.object (Listing.put (changed.spreadFields fields) (.text part)
          inner') mark)).mark? = some m := by
        unfold marked
        rw [if_pos (hm ▸ rfl)]
        exact hm
      have hnode := hone m hmarked
      unfold Raw.marks at hnode
      rw [List.count_append] at hnode
      omega
    cases other with
    | nil => exact absurd hapart (not_apart_nil_right _)
    | cons name others =>
      rw [hinner.put_spreadFields hget hfields, follow_cons, follow_cons]
      by_cases hname : name = part
      · subst hname
        rw [Listing.get?_put_self, hget]
        exact ih (fun m hm => Nat.le_trans (Raw.count_marks_le hget m) (hfields m hm)) hapart.tail
      · rw [Listing.get?_put_of_ne _ _ fun heq => hname (Label.text.inj heq)]

end Assigned

/-! ## What an override leaves -/

theorem assigned_of_overridden {raw : Raw.Fields} {path : String}
    (h : overridden raw path value = .ok tree) :
    ∃ changed, Assigned (value.raised (Raw.object raw).markBound) (.object raw) (parts path) tree changed := by
  unfold overridden at h
  cases hparts : parts path with
  | nil => exact absurd hparts (parts_ne_nil path)
  | cons part rest =>
    rw [hparts] at h
    dsimp only at h
    cases hassign : assign (value.raised (Raw.object raw).markBound) (.object raw) part rest with
    | error fault =>
      rw [hassign] at h
      cases h
    | ok result =>
      rw [hassign] at h
      cases h
      exact ⟨result.2, assigned_of_assign hassign⟩

/-- A path leads to the same from the settings of a section and from the section. -/
theorem lookup_sections {fields : Raw.Fields} {mark : Option Nat} (path : String) :
    lookup (sections (.object fields mark)) path = follow (.object fields mark) (parts path) := by
  unfold lookup sections
  cases hparts : parts path with
  | nil => exact absurd hparts (parts_ne_nil path)
  | cons part rest => rw [follow_cons, follow_cons]

/-- **What is overridden stands at its path**, wherever else the section may stand. It has marks of its own. -/
theorem lookup_overridden_self {raw : Raw.Fields} {path : String}
    (h : overridden raw path value = .ok tree) :
    lookup (sections tree) path = some (value.raised (Raw.object raw).markBound) := by
  obtain ⟨changed, hassigned⟩ := assigned_of_overridden h
  obtain ⟨fields, mark, rfl⟩ := hassigned.exists_object
  rw [lookup_sections, hassigned.follow_self]

/-- **Apart from the path, there is what there was.** -/
theorem lookup_overridden_of_apart {raw : Raw.Fields} {path other : String}
    (hone : StandsOnce raw path) (hapart : Apart (parts path) (parts other))
    (h : overridden raw path value = .ok tree) : lookup (sections tree) other = lookup raw other := by
  obtain ⟨changed, hassigned⟩ := assigned_of_overridden h
  obtain ⟨fields, mark, rfl⟩ := hassigned.exists_object
  rw [lookup_sections, hassigned.follow_of_apart ?_ hapart]
  · rfl
  · intro m hm
    exact hone m (hassigned.mark?_changed ▸ hm)

end Configuration

end EditionMarket
