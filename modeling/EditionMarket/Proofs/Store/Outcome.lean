import EditionMarket.Proofs.Program
import EditionMarket.Proofs.Store.Rosters
import EditionMarket.Store.Family
import EditionMarket.Store.Numbering

/-!
# Work on a store outside of transactions

Where no transaction is open, nothing is remembered, and a program does to the contents of the store what
it says and no more. This file says so for the programs of which all others are made: looking into slots,
writing to them, keeping rosters and giving out numbers.

Main statements: `Family.IsField.push_eq_ok_iff` and `Family.IsField.discard_remove_eq`.
-/

namespace EditionMarket

/-- A store of which no transaction is open. -/
def Store.idle (limits : Limits) (ceiling : Int) (contents : Contents) : Store where
  limits := limits
  ceiling := ceiling
  contents := contents

theorem Store.eq_idle {store : Store} (hn : store.journal = none) :
    store = idle store.limits store.ceiling store.contents := by
  obtain ⟨limits, ceiling, contents, journal⟩ := store
  cases hn
  rfl

variable {limits : Limits} {ceiling : Int} {contents : Contents} {final : Store} {α : Type}

/-! ## Slots and checks -/

namespace StoreM

theorem peek_eq (slot : Slot) :
    peek slot (.idle limits ceiling contents) =
      .ok (contents.read slot) (.idle limits ceiling contents) := rfl

theorem fetch_eq (slot : Slot) :
    fetch slot (.idle limits ceiling contents) =
      .ok (contents.read slot) (.idle limits ceiling contents) := rfl

theorem assign_eq (slot : Slot) (held : slot.Held) :
    assign slot held (.idle limits ceiling contents) =
      .ok () (.idle limits ceiling (contents.write slot held)) := rfl

theorem write_eq_ok_iff {slot : Slot} {held : slot.Held} {u : Unit} :
    (modify (·.write slot held) : StoreM Unit) (.idle limits ceiling contents) = .ok u final ↔
      final = .idle limits ceiling (contents.write slot held) := by
  constructor
  · intro h
    cases h
    rfl
  · rintro rfl
    rfl

/-- A check that passes gives its value and changes nothing. -/
theorem ofExcept_eq_ok_iff {check : Except Refusal α} {store : Store} {value : α} :
    ofExcept check store = .ok value final ↔ check = .ok value ∧ final = store := by
  cases check with
  | ok result =>
    constructor
    · intro h
      cases h
      exact ⟨rfl, rfl⟩
    · rintro ⟨h, rfl⟩
      cases h
      rfl
  | error refusal =>
    constructor
    · intro h
      cases h
    · rintro ⟨h, -⟩
      cases h

end StoreM

/-! ## Rosters -/

namespace Family

variable {κ ι : Type} (family : Family κ ι)

/-- The roster of a key, as the contents hold it. -/
def find (contents : Contents) (key : κ) : Option (Roster ι) :=
  family.roster? key (contents.read (family.slot key))

/-- The contents with another roster for a key. -/
def replace (contents : Contents) (key : κ) (roster : Option (Roster ι)) : Contents :=
  contents.write (family.slot key) (family.held key roster)

theorem peek_eq (key : κ) :
    family.peek key (.idle limits ceiling contents) =
      .ok (family.find contents key) (.idle limits ceiling contents) := rfl

theorem size_eq (key : κ) :
    family.size key (.idle limits ceiling contents) =
      .ok (((family.find contents key).map Roster.size).getD 0) (.idle limits ceiling contents) := rfl

theorem put_eq (key : κ) (roster : Option (Roster ι)) :
    family.put key roster (.idle limits ceiling contents) =
      .ok () (.idle limits ceiling (family.replace contents key roster)) := rfl

/-- The roster for work is the one that is there, or a new one. Whatever replaces it does not depend on
whether it was new. -/
theorem fetch_eq (limits : Limits) (ceiling : Int) (contents : Contents) (key : κ) :
    ∃ middle,
      family.fetch key (.idle limits ceiling contents) =
          .ok ((family.find contents key).getD (.empty (family.capacity limits)))
            (.idle limits ceiling middle) ∧
        ∀ roster, family.replace middle key roster = family.replace contents key roster := by
  unfold fetch
  rw [Program.bind_of_ok (StoreM.fetch_eq (family.slot key))]
  cases hf : family.find contents key with
  | some roster =>
    unfold find at hf
    rw [hf]
    exact ⟨contents, rfl, fun _ => rfl⟩
  | none =>
    unfold find at hf
    rw [hf]
    -- The new roster has been written already, and is written over.
    exact ⟨_, rfl, fun _ => Contents.write_write contents _ _ _⟩

/-- The rosters of the family are a table in the contents: `get` takes it out and `set` puts another one in
its place. -/
structure IsField [Ord κ] [Std.TransOrd κ] (get : Contents → Table κ (Roster ι))
    (set : Contents → Table κ (Roster ι) → Contents) : Prop where
  find_eq : ∀ contents key, family.find contents key = (get contents)[key]?
  replace_eq : ∀ contents key roster,
    family.replace contents key roster = set contents ((get contents).set key roster)
  set_get : ∀ contents, set contents (get contents) = contents

theorem isField_creatorsOf :
    creatorsOf.IsField Contents.creatorsOf fun contents rosters =>
      { contents with creatorsOf := rosters } :=
  ⟨fun _ _ => rfl, fun _ _ _ => rfl, fun _ => rfl⟩

theorem isField_editionsOf :
    editionsOf.IsField Contents.editionsOf fun contents rosters =>
      { contents with editionsOf := rosters } :=
  ⟨fun _ _ => rfl, fun _ _ _ => rfl, fun _ => rfl⟩

theorem isField_tokensOf :
    tokensOf.IsField Contents.tokensOf fun contents rosters =>
      { contents with tokensOf := rosters } :=
  ⟨fun _ _ => rfl, fun _ _ _ => rfl, fun _ => rfl⟩

namespace IsField

variable {family} [Ord κ] [Std.TransOrd κ] {get : Contents → Table κ (Roster ι)}
  {set : Contents → Table κ (Roster ι) → Contents}

/-- The roster for work is the one of the table, and what replaces it goes into the table. -/
theorem fetch_eq (hf : family.IsField get set) (limits : Limits) (ceiling : Int) (contents : Contents)
    (key : κ) :
    ∃ middle,
      family.fetch key (.idle limits ceiling contents) =
          .ok ((get contents).rosterAt (family.capacity limits) key) (.idle limits ceiling middle) ∧
        ∀ roster, family.replace middle key roster = set contents ((get contents).set key roster) := by
  obtain ⟨middle, hfetch, hreplace⟩ := family.fetch_eq limits ceiling contents key
  have hroster : (family.find contents key).getD (.empty (family.capacity limits)) =
      (get contents).rosterAt (family.capacity limits) key := by
    rw [hf.find_eq]
    rfl
  rw [hroster] at hfetch
  exact ⟨middle, hfetch, fun roster => (hreplace roster).trans (hf.replace_eq contents key roster)⟩

/-- An item enters the roster of a key exactly if there is room. -/
theorem push_eq_ok_iff (hf : family.IsField get set) {key : κ} {item : ι} {full : Nat → Fault}
    {u : Unit} :
    family.push key item full (.idle limits ceiling contents) = .ok u final ↔
      (get contents).HasRoom (family.capacity limits) key ∧
        final = .idle limits ceiling
          (set contents ((get contents).enrolled (family.capacity limits) key item)) := by
  obtain ⟨middle, hfetch, hreplace⟩ := hf.fetch_eq limits ceiling contents key
  unfold push Table.HasRoom Table.enrolled
  rw [Program.bind_of_ok hfetch]
  cases hp : ((get contents).rosterAt (family.capacity limits) key).push? item with
  | none =>
    -- There is no room: with room, something longer would have come out.
    refine iff_of_false Program.throw_ne_ok fun h => ?_
    obtain ⟨longer, hl, -⟩ := Roster.push?_eq_some_of_lt h.1 item
    rw [hp] at hl
    cases hl
  | some longer =>
    dsimp only
    rw [put_eq, hreplace]
    constructor
    · intro h
      cases h
      exact ⟨(Roster.push?_eq_some_iff.1 hp).1, rfl⟩
    · rintro ⟨-, rfl⟩
      rfl

/-- Where there is no room, the fault is told the capacity of the roster. -/
theorem push_eq_error (hf : family.IsField get set) {key : κ}
    (hfull : ¬ (get contents).HasRoom (family.capacity limits) key) (item : ι) (full : Nat → Fault) :
    ∃ final, family.push key item full (.idle limits ceiling contents) =
      .error (full ((get contents).rosterAt (family.capacity limits) key).capacity) final := by
  obtain ⟨middle, hfetch, -⟩ := hf.fetch_eq limits ceiling contents key
  unfold push
  rw [Program.bind_of_ok hfetch]
  cases hp : ((get contents).rosterAt (family.capacity limits) key).push? item with
  | none => exact ⟨_, rfl⟩
  | some longer => exact absurd (Roster.push?_eq_some_iff.1 hp).1 hfull

variable [DecidableEq ι]

/-- An item leaves the roster of a key if it is there. -/
theorem discard_remove_eq (hf : family.IsField get set) (key : κ) (item : ι) :
    Functor.discard (family.remove key item) (.idle limits ceiling contents) =
      .ok () (.idle limits ceiling (set contents ((get contents).struck key item))) := by
  have hremove : ∃ found, family.remove key item (.idle limits ceiling contents) =
      .ok found (.idle limits ceiling (set contents ((get contents).struck key item))) := by
    unfold remove Table.struck
    rw [Program.bind_of_ok (family.peek_eq key), hf.find_eq]
    cases (get contents)[key]? with
    | none =>
      dsimp only
      rw [hf.set_get]
      exact ⟨false, rfl⟩
    | some roster =>
      dsimp only
      by_cases hm : item ∈ roster.items
      · rw [if_pos hm, if_pos hm, ← hf.replace_eq]
        exact ⟨true, rfl⟩
      · rw [if_neg hm, if_neg hm, hf.set_get]
        exact ⟨false, rfl⟩
  obtain ⟨found, hremove⟩ := hremove
  exact Program.discard_of_ok hremove

end IsField

end Family

/-! ## Numbers -/

namespace Numbering

theorem nextEdition_eq_ok_iff {id : ItemId} :
    nextEdition (.idle limits ceiling contents) = .ok id final ↔
      (contents.lastEdition < ceiling ∧ id = contents.lastEdition + 1) ∧
        final = .idle limits ceiling contents := by
  unfold nextEdition
  rw [Program.bind_of_ok (StoreM.peek_eq .lastEdition)]
  exact StoreM.ofExcept_eq_ok_iff.trans (and_congr_left' Counter.next_eq_ok_iff)

theorem nextToken_eq_ok_iff {id : ItemId} :
    nextToken (.idle limits ceiling contents) = .ok id final ↔
      (contents.lastToken < ceiling ∧ id = contents.lastToken + 1) ∧
        final = .idle limits ceiling contents := by
  unfold nextToken
  rw [Program.bind_of_ok (StoreM.peek_eq .lastToken)]
  exact StoreM.ofExcept_eq_ok_iff.trans (and_congr_left' Counter.next_eq_ok_iff)

theorem commitEdition_eq_ok_iff {id : ItemId} {u : Unit} :
    commitEdition id (.idle limits ceiling contents) = .ok u final ↔
      id = contents.lastEdition + 1 ∧
        final = .idle limits ceiling { contents with lastEdition := id } := by
  have hpeek : StoreM.peek .lastEdition (.idle limits ceiling contents) =
      .ok contents.lastEdition (.idle limits ceiling contents) := rfl
  unfold commitEdition
  rw [Program.bind_of_ok hpeek]
  by_cases h : id = contents.lastEdition + 1
  · rw [if_pos h, StoreM.assign_eq, EStateM.Result.ok.injEq]
    simp only [h, true_and, eq_comm (a := final)]
    rfl
  · rw [if_neg h]
    exact iff_of_false Program.throw_ne_ok fun hc => h hc.1

theorem commitToken_eq_ok_iff {id : ItemId} {u : Unit} :
    commitToken id (.idle limits ceiling contents) = .ok u final ↔
      id = contents.lastToken + 1 ∧
        final = .idle limits ceiling { contents with lastToken := id } := by
  have hpeek : StoreM.peek .lastToken (.idle limits ceiling contents) =
      .ok contents.lastToken (.idle limits ceiling contents) := rfl
  unfold commitToken
  rw [Program.bind_of_ok hpeek]
  by_cases h : id = contents.lastToken + 1
  · rw [if_pos h, StoreM.assign_eq, EStateM.Result.ok.injEq]
    simp only [h, true_and, eq_comm (a := final)]
    rfl
  · rw [if_neg h]
    exact iff_of_false Program.throw_ne_ok fun hc => h hc.1

end Numbering

end EditionMarket
