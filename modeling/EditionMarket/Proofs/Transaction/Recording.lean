import EditionMarket.Store
import Mathlib.Data.List.Basic

/-!
# What an open transaction remembers

While a transaction is open, its journal knows for every slot that may have changed what the slot held
when the transaction began. This file says what that means for a journal (`Journal.Covers`) and for a
store (`Store.Recording`), and shows that touching a slot, and writing to a slot that has been touched,
keep it that way.

Main statements: `Journal.Covers.restore_eq`, restoring gives back the contents of the start, and
`Store.Recording.rollBack_eq`, so does rolling back.
-/

namespace EditionMarket

/-! ## Journals -/

/-- A journal covers the way from the contents `start` to the contents `now`: it remembers of its slots
what they held at the start, and all other slots hold the same as then. -/
structure Journal.Covers (journal : Journal) (start now : Contents) : Prop where
  nodup : journal.slots.Nodup
  prior_eq : ∀ saved ∈ journal, saved.prior = start.read saved.slot
  read_eq : ∀ slot, slot ∉ journal.slots → now.read slot = start.read slot

namespace Journal.Covers

variable {journal : Journal} {start now : Contents}

theorem nil (start : Contents) : Journal.Covers [] start start where
  nodup := List.nodup_nil
  prior_eq := by
    intro saved h
    cases h
  read_eq := by
    intro slot _
    rfl

/-- Recording a slot keeps a journal covering. -/
theorem record (h : journal.Covers start now) (slot : Slot) :
    (journal.record slot (now.read slot)).Covers start now := by
  refine ⟨nodup_slots_record h.nodup, ?_, ?_⟩
  · intro saved hm
    unfold Journal.record at hm
    split at hm
    · exact h.prior_eq saved hm
    · rename_i hnew
      rcases List.mem_append.1 hm with hm | hm
      · exact h.prior_eq saved hm
      -- A slot that is recorded only now has held the same all the while.
      · rw [List.mem_singleton] at hm
        subst hm
        exact h.read_eq slot hnew
  · intro other ho
    rw [mem_slots_record, not_or] at ho
    exact h.read_eq other ho.1

/-- A slot that is remembered may change. -/
theorem write (h : journal.Covers start now) {slot : Slot} (hm : slot ∈ journal.slots)
    (held : slot.Held) : journal.Covers start (now.write slot held) := by
  refine ⟨h.nodup, h.prior_eq, ?_⟩
  -- Only slots that are not remembered have to hold the same, and this one is.
  intro other ho
  have hne : slot ≠ other := by
    rintro rfl
    exact ho hm
  rw [Contents.read_write_of_ne _ _ hne]
  exact h.read_eq other ho

/-- Restoring a covering journal gives back the contents of the start. -/
theorem restore_eq (h : journal.Covers start now) : journal.restore now = start := by
  apply Contents.ext_read
  intro slot
  by_cases hm : slot ∈ journal.slots
  · obtain ⟨saved, hs, rfl⟩ := List.mem_map.1 hm
    rw [read_restore_of_mem now h.nodup hs]
    exact h.prior_eq saved hs
  · rw [read_restore_of_notMem now hm]
    exact h.read_eq slot hm

end Journal.Covers

/-! ## Stores -/

namespace Store

theorem commit_of_journal_eq_none {store : Store} (h : store.journal = none) :
    store.commit = store := by
  cases store
  simp_all [commit]

/-- The touched slots of an open transaction are those of its journal. -/
theorem touched_of_journal_eq_some {store : Store} {journal : Journal}
    (h : store.journal = some journal) : store.touched = journal.slots := by
  simp [touched, h]

/-- The store `now` has a transaction open that began when the store was `start`. The journal covers
what has been done since, and the slots `held` have been touched. -/
structure Recording (start : Store) (held : List Slot) (now : Store) : Prop where
  limits_eq : now.limits = start.limits
  ceiling_eq : now.ceiling = start.ceiling
  covers : ∃ journal, now.journal = some journal ∧ journal.Covers start.contents now.contents
  held_subset : held ⊆ now.touched

namespace Recording

variable {start now : Store} {held : List Slot}

theorem begin (store : Store) : Recording store [] store.begin where
  limits_eq := rfl
  ceiling_eq := rfl
  covers := ⟨[], rfl, Journal.Covers.nil store.contents⟩
  held_subset := List.nil_subset _

theorem mono (h : Recording start held now) {fewer : List Slot} (hf : fewer ⊆ held) :
    Recording start fewer now :=
  ⟨h.limits_eq, h.ceiling_eq, h.covers, fun _ hm => h.held_subset (hf hm)⟩

/-- A slot that is touched can be asked for. -/
theorem touch (h : Recording start held now) (slot : Slot) :
    Recording start (slot :: held) (now.touch slot) := by
  obtain ⟨journal, hj, hc⟩ := h.covers
  have hnext : (now.touch slot).journal = some (journal.record slot (now.contents.read slot)) := by
    simp [Store.touch, hj]
  refine ⟨h.limits_eq, h.ceiling_eq, ⟨_, hnext, hc.record slot⟩, ?_⟩
  intro other ho
  rw [touched_of_journal_eq_some hnext, Journal.mem_slots_record]
  rcases List.mem_cons.1 ho with rfl | ho
  · exact Or.inr rfl
  · left
    rw [← touched_of_journal_eq_some hj]
    exact h.held_subset ho

/-- A slot that has been touched may be written to. -/
theorem write (h : Recording start held now) {slot : Slot} (hm : slot ∈ held) (x : slot.Held) :
    Recording start held (now.write slot x) := by
  obtain ⟨journal, hj, hc⟩ := h.covers
  have hs : slot ∈ journal.slots := by
    rw [← touched_of_journal_eq_some hj]
    exact h.held_subset hm
  exact ⟨h.limits_eq, h.ceiling_eq, ⟨journal, hj, hc.write hs x⟩, h.held_subset⟩

/-- Rolling back leads to the start, with no transaction open. -/
theorem rollBack_eq (h : Recording start held now) : now.rollBack = start.commit := by
  obtain ⟨journal, hj, hc⟩ := h.covers
  have hr : (now.journal.getD []).restore now.contents = start.contents := by
    rw [hj]
    exact hc.restore_eq
  unfold rollBack commit
  rw [hr, h.limits_eq, h.ceiling_eq]

end Recording

end Store

end EditionMarket
