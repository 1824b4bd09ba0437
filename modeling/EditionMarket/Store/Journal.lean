import EditionMarket.Store.Contents

/-!
# Journals

A journal remembers what slots held before they were first touched, in the order of the first
touches. Restoring it writes all of that back.

Main statements: `read_restore_of_notMem` and `read_restore_of_mem` say what a slot holds after a
journal without repetitions was restored.
-/

namespace EditionMarket

instance (slot : Slot) : DecidableEq slot.Held :=
  match slot with
  | .creator _ => inferInstanceAs (DecidableEq (Option Creator))
  | .creatorsOf _ => inferInstanceAs (DecidableEq (Option (Roster CreatorId)))
  | .edition _ => inferInstanceAs (DecidableEq (Option Edition))
  | .editionsOf _ => inferInstanceAs (DecidableEq (Option (Roster ItemId)))
  | .token _ => inferInstanceAs (DecidableEq (Option Token))
  | .tokensOf _ => inferInstanceAs (DecidableEq (Option (Roster ItemId)))
  | .lastEdition => inferInstanceAs (DecidableEq Int)
  | .lastToken => inferInstanceAs (DecidableEq Int)

/-- What a slot held before it was first touched. -/
structure Saved where
  slot : Slot
  prior : slot.Held
deriving DecidableEq

/-- What was held by the slots that have been touched. -/
abbrev Journal := List Saved

namespace Journal

/-- The slots that have been touched, in order. -/
def slots (journal : Journal) : List Slot := journal.map Saved.slot

/-- Remembers what a slot holds, unless the slot is remembered already. -/
def record (journal : Journal) (slot : Slot) (held : slot.Held) : Journal :=
  if slot ∈ journal.slots then journal else journal ++ [⟨slot, held⟩]

/-- Writes back what the slots held. -/
def restore (journal : Journal) (contents : Contents) : Contents :=
  journal.foldl (fun contents saved => contents.write saved.slot saved.prior) contents

/-! ## What recording and restoring do -/

/-- A slot that was recorded is among the slots, and so are those that were there before. -/
theorem mem_slots_record {journal : Journal} {slot other : Slot} {held : slot.Held} :
    other ∈ (journal.record slot held).slots ↔ other ∈ journal.slots ∨ other = slot := by
  unfold record
  split
  case isTrue h =>
    constructor
    · exact Or.inl
    · rintro (hm | rfl)
      · exact hm
      · exact h
  case isFalse => simp [slots]

/-- Recording never repeats a slot. -/
theorem nodup_slots_record {journal : Journal} {slot : Slot} {held : slot.Held}
    (h : journal.slots.Nodup) : (journal.record slot held).slots.Nodup := by
  unfold record
  split
  case isTrue => exact h
  case isFalse hn =>
    simp only [slots, List.map_append, List.map_cons, List.map_nil]
    exact List.nodup_append.2 ⟨h, by simp, by
      intro a ha b hb
      rw [List.mem_singleton] at hb
      subst hb
      intro e
      exact hn (e ▸ ha)⟩

/-- Restoring leaves slots alone that are not remembered. -/
theorem read_restore_of_notMem {journal : Journal} (contents : Contents) {slot : Slot}
    (h : slot ∉ journal.slots) : (journal.restore contents).read slot = contents.read slot := by
  induction journal generalizing contents with
  | nil => rfl
  | cons saved rest ih =>
    simp only [slots, List.map_cons, List.mem_cons, not_or] at h
    show (restore rest (contents.write saved.slot saved.prior)).read slot = contents.read slot
    rw [ih _ h.2, Contents.read_write_of_ne _ _ (Ne.symm h.1)]

/-- Restoring gives a remembered slot what it held. -/
theorem read_restore_of_mem {journal : Journal} (contents : Contents) {saved : Saved}
    (hn : journal.slots.Nodup) (h : saved ∈ journal) :
    (journal.restore contents).read saved.slot = saved.prior := by
  induction journal generalizing contents with
  | nil => cases h
  | cons first rest ih =>
    simp only [slots, List.map_cons, List.nodup_cons] at hn
    show (restore rest (contents.write first.slot first.prior)).read saved.slot = saved.prior
    rcases List.mem_cons.1 h with rfl | hr
    -- The slot is not remembered a second time, so the rest leaves it alone.
    · rw [read_restore_of_notMem _ hn.1, Contents.read_write_self]
    · exact ih _ hn.2 hr

end Journal

end EditionMarket
