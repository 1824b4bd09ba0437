import EditionMarket.Roster
import Mathlib.Data.List.Nodup
import Mathlib.Data.List.Perm.Basic

/-!
# Removing items from rosters

When an item leaves a roster, the last item takes its place. Up to the order of the items this is the
removal of one occurrence.

Main statements: `swapOut_perm_erase`, and `swapOut_concat`, removing an item that has just entered at the
end gives back the very list.
-/

namespace EditionMarket.Roster

variable {α : Type} [BEq α] [LawfulBEq α] {item other : α} {items : List α}

omit [LawfulBEq α] in
/-- The list without its last item, with the last item where the removed one stood. -/
theorem swapOut_append_singleton (item last : α) (items : List α) :
    swapOut item (items ++ [last]) = items.set ((items ++ [last]).idxOf item) last := by
  unfold swapOut
  simp

/-- An item that enters at the end and is removed again leaves the list as it was, whether or not it
occurs elsewhere in it. -/
theorem swapOut_concat (item : α) (items : List α) : swapOut item (items ++ [item]) = items := by
  rw [swapOut_append_singleton, List.idxOf_append]
  split
  case isTrue h =>
    -- The item takes its own place.
    conv_lhs =>
      arg 3
      rw [← List.getElem_idxOf (List.idxOf_lt_length_of_mem h)]
    exact List.set_getElem_self _
  case isFalse h =>
    apply List.set_eq_of_length_le
    omega

/-- One occurrence of the item is removed, and the others change places at most. -/
theorem swapOut_perm_erase (h : item ∈ items) : (swapOut item items).Perm (items.erase item) := by
  rcases List.eq_nil_or_concat items with rfl | ⟨init, last, rfl⟩
  · cases h
  rw [List.concat_eq_append] at h ⊢
  rw [swapOut_append_singleton, List.idxOf_append]
  by_cases hm : item ∈ init
  -- The last item takes the place of the removed one, which is a change of places.
  · rw [if_pos hm, List.erase_append_left _ hm]
    have hlt : init.idxOf item < init.length := List.idxOf_lt_length_of_mem hm
    have hset : (init.set (init.idxOf item) last).Perm (last :: init.erase item) := by
      rw [← List.eraseIdx_idxOf_eq_erase]
      exact List.set_perm_cons_eraseIdx hlt last
    exact hset.trans (List.perm_append_singleton last _).symm
  -- The removed item is the last one itself.
  · have heq : item = last := by
      rcases List.mem_append.1 h with hi | hl
      · exact absurd hi hm
      · exact List.mem_singleton.1 hl
    subst heq
    rw [if_neg hm, List.erase_append_right _ hm, List.set_eq_of_length_le (by omega)]
    simp

theorem nodup_swapOut (hd : items.Nodup) (h : item ∈ items) : (swapOut item items).Nodup :=
  (swapOut_perm_erase h).nodup_iff.2 (hd.erase item)

/-- If there are no duplicates, exactly the removed item is gone. -/
theorem mem_swapOut_iff (hd : items.Nodup) (h : item ∈ items) :
    other ∈ swapOut item items ↔ other ≠ item ∧ other ∈ items := by
  rw [(swapOut_perm_erase h).mem_iff, hd.mem_erase_iff]

/-- What a removal leaves of a roster that has the item. -/
theorem items_remove {roster : Roster α} (h : item ∈ roster.items) :
    (roster.remove item).items = swapOut item roster.items := by
  unfold remove
  rw [if_pos (contains_iff.2 h)]

omit [BEq α] [LawfulBEq α] in
/-- A roster that is not full takes the item in, at the end. -/
theorem push?_eq_some_of_lt {roster : Roster α} (h : roster.size < roster.capacity) (item : α) :
    ∃ longer, roster.push? item = some longer ∧ longer.capacity = roster.capacity ∧
      longer.items = roster.items ++ [item] := by
  cases hp : roster.push? item with
  | none =>
    rw [push?_eq_none_iff] at hp
    unfold isFull at hp
    unfold size at h
    have hle : roster.capacity ≤ roster.items.length := of_decide_eq_true hp
    omega
  | some longer =>
    obtain ⟨-, hc, hi⟩ := push?_eq_some_iff.1 hp
    exact ⟨longer, rfl, hc, hi⟩

end EditionMarket.Roster
