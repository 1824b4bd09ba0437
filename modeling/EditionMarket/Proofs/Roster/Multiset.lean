import EditionMarket.Account
import EditionMarket.Proofs.Roster

/-!
# Rosters are bounded multisets

A roster takes items in and gives them away, and does nothing else: it counts how often every item is there,
and never holds more than its capacity. The order of the items matters little, but it is disturbed as little
as can be, and an item that has just entered leaves the others where they were.

Main definitions: `Call`, `Takes` and `Loses`. Main statements: `takes_of_push?` and `loses_remove`, what one
call does; `capacity_run`, what a series of calls keeps; `removeEach_items`, how a roster is drained; and
`rosters_are_bounded_multisets`.
-/

namespace EditionMarket.Roster

variable {α : Type}

/-! ## Calls -/

/-- What is asked of a roster. -/
inductive Call (α : Type)
  /-- Take an item in. -/
  | push (item : α)
  /-- Give an item away. -/
  | remove (item : α)

variable [BEq α]

/-- Does what a call asks for, and tells whether there was anything to do. -/
def Call.perform (roster : Roster α) : Call α → Bool × Roster α
  | push item =>
    match roster.push? item with
    | some longer => (true, longer)
    | none => (false, roster)
  | remove item => (roster.contains item, roster.remove item)

/-- The roster after a series of calls. -/
def run (roster : Roster α) (calls : List (Call α)) : Roster α :=
  calls.foldl (fun roster call => (call.perform roster).2) roster

/-! ## Capacities -/

theorem perform_push (roster : Roster α) (item : α) :
    (Call.push item).perform roster =
      ((roster.push? item).isSome, (roster.push? item).getD roster) := by
  dsimp only [Call.perform]
  cases roster.push? item <;> rfl

/-- No call changes the capacity. -/
theorem capacity_perform (roster : Roster α) (call : Call α) :
    (call.perform roster).2.capacity = roster.capacity := by
  cases call with
  | push item =>
    rw [perform_push]
    cases h : roster.push? item with
    | none => rfl
    | some longer => exact (push?_eq_some_iff.1 h).2.1
  | remove item => exact capacity_remove roster item

/-- No series of calls does. -/
theorem capacity_run (roster : Roster α) (calls : List (Call α)) :
    (roster.run calls).capacity = roster.capacity := by
  induction calls generalizing roster with
  | nil => rfl
  | cons call rest ih => exact (ih _).trans (capacity_perform roster call)

omit [BEq α] in
/-- A roster that is made has the capacity and the items that it was made of. -/
theorem ofList_eq_ok_iff {bound : Int} {items : List α} {roster : Roster α} :
    ofList bound items = .ok roster ↔ (roster.capacity : Int) = bound ∧ roster.items = items := by
  unfold ofList
  have hle := roster.length_le
  constructor
  · intro h
    split at h
    · cases h
    split at h
    · cases h
      exact ⟨Int.toNat_of_nonneg (by omega), rfl⟩
    · cases h
  · rintro ⟨rfl, rfl⟩
    rw [if_neg (by omega), dif_pos (by simpa using hle)]
    rfl

/-! ## What one call does -/

/-- An item has entered a roster, at the end, and could leave it again at once. -/
structure Takes (before after : Roster α) (item : α) : Prop where
  items_eq : after.items = before.items ++ [item]
  count_eq : ∀ other, after.items.count other = before.items.count other + if item == other then 1 else 0
  undone : (Call.remove item).perform after = (true, before)

/-- An item has left a roster, where it stood first. Of the other items, at most the last one has another
place, which is the one that was freed. -/
structure Loses (before after : Roster α) (item : α) : Prop where
  count_eq : ∀ other, before.items.count other = after.items.count other + if item == other then 1 else 0
  length_eq : before.items.length = after.items.length + 1
  slot : ∃ slot, before.items[slot]? = some item ∧ (∀ earlier < slot, before.items[earlier]? ≠ some item) ∧
    ∀ place < after.items.length,
      after.items[place]? = if place = slot then before.items.getLast? else before.items[place]?

variable [LawfulBEq α] {roster longer : Roster α} {item other : α} {items : List α}

omit [LawfulBEq α] in
/-- What stands where after a removal: the last item where the removed one stood, and elsewhere what was
there. -/
theorem getElem?_swapOut {place : Nat} (h : place < (swapOut item items).length) :
    (swapOut item items)[place]? =
      if place = items.idxOf item then items.getLast? else items[place]? := by
  rw [length_swapOut] at h
  rcases List.eq_nil_or_concat items with rfl | ⟨init, last, rfl⟩
  · cases h
  rw [List.concat_eq_append] at h ⊢
  rw [List.length_append, List.length_singleton, Nat.add_sub_cancel] at h
  rw [swapOut_append_singleton, List.getElem?_set, List.getLast?_append_of_ne_nil _ (by simp),
    List.getLast?_singleton, List.getElem?_append_left h]
  by_cases hplace : (init ++ [last]).idxOf item = place
  · rw [if_pos hplace, if_pos hplace.symm, hplace, if_pos h]
  · rw [if_neg hplace, if_neg (Ne.symm hplace)]

theorem takes_of_push? (h : roster.push? item = some longer) : Takes roster longer item := by
  obtain ⟨-, hcapacity, hitems⟩ := push?_eq_some_iff.1 h
  have hmem : item ∈ longer.items := by
    rw [hitems]
    exact List.mem_append_right _ List.mem_cons_self
  refine ⟨hitems, fun other => ?_, ?_⟩
  · rw [hitems, List.count_append, List.count_singleton]
  · refine Prod.ext (contains_iff.2 hmem) (ext_items ?_ ?_)
    · exact (capacity_remove longer item).trans hcapacity
    · exact (items_remove hmem).trans (hitems ▸ swapOut_concat item roster.items)

theorem loses_remove (h : item ∈ roster.items) : Loses roster (roster.remove item) item := by
  have hitems := items_remove h
  have hcount : 0 < roster.items.count item := List.count_pos_iff.2 h
  refine ⟨fun other => ?_, ?_, roster.items.idxOf item, ?_, fun earlier hlt => ?_, fun place hplace => ?_⟩
  · rw [hitems, (swapOut_perm_erase h).count_eq, List.count_erase]
    split
    case isTrue hsame =>
      rw [← eq_of_beq hsame]
      omega
    case isFalse => rfl
  · have hpos : 0 < roster.items.length := List.length_pos_of_mem h
    rw [hitems, length_swapOut]
    omega
  · exact List.getElem?_idxOf h
  · intro hfound
    obtain ⟨hbound, heq⟩ := List.getElem?_eq_some_iff.1 hfound
    have hother : (roster.items[earlier] == item) = false := List.not_of_lt_findIdx hlt
    rw [heq, beq_self_eq_true] at hother
    cases hother
  · rw [hitems] at hplace ⊢
    exact getElem?_swapOut hplace

theorem remove_of_notMem (h : item ∉ roster.items) : roster.remove item = roster := by
  unfold remove
  rw [if_neg fun hc => h (contains_iff.1 hc)]

/-! ## Draining -/

/-- Whoever removes the items of a roster, in whatever order, finds every one of them, and none is left. -/
theorem removeEach_of_perm (h : roster.items.Perm items) :
    (roster.removeEach items).1 = items.map (·, true) ∧ (roster.removeEach items).2.items = [] ∧
      (roster.removeEach items).2 = roster.removeAll items := by
  induction items generalizing roster with
  | nil => exact ⟨rfl, h.eq_nil, rfl⟩
  | cons item rest ih =>
    have hmem : item ∈ roster.items := h.mem_iff.2 List.mem_cons_self
    -- What is left of the roster are the items that are left.
    have hrest : (roster.remove item).items.Perm rest := by
      rw [items_remove hmem]
      exact (swapOut_perm_erase hmem).trans (List.cons_perm_iff_perm_erase.1 h.symm).2.symm
    obtain ⟨hseen, hempty, hall⟩ := ih hrest
    refine ⟨?_, hempty, hall⟩
    show (item, roster.contains item) :: ((roster.remove item).removeEach rest).1 = _
    rw [hseen, contains_iff.2 hmem]
    rfl

/-- A roster is drained in the order in which its items stood at the start, although they change places on the
way. -/
theorem removeEach_items (roster : Roster α) :
    roster.removeEach roster.iterate = (roster.items.map (·, true), roster.drain) ∧
      roster.drain.items = [] := by
  obtain ⟨hseen, hempty, hall⟩ := removeEach_of_perm (List.Perm.refl roster.items)
  exact ⟨Prod.ext hseen hall, (congrArg items hall).symm.trans hempty⟩

/-! ## Every roster -/

/-- **Rosters are bounded multisets.** Take any capacity and any items that a roster can be made of, and any
series of pushes and removals. The roster never holds more than its capacity. A push is in vain exactly if the
roster holds as much as that, and then changes nothing; otherwise the item is there once more, and removing it
right afterwards gives back the very roster. A removal is in vain exactly if the item is not there, and then
changes nothing; otherwise the item is there once less, all others as often as before, and only the freed
place has another item than before. Whoever goes through the roster and removes every item that is seen sees
those that were there at the start, in their order, finds every one of them, and leaves none. -/
theorem rosters_are_bounded_multisets {bound : Int} {initial : List α} {start : Roster α}
    (h : ofList bound initial = .ok start) (calls : List (Call α)) :
    let roster := start.run calls
    (roster.items.length : Int) ≤ bound ∧
      (∀ item, ∃ taken after, (Call.push item).perform roster = (taken, after) ∧
        (taken = false ↔ (roster.items.length : Int) = bound) ∧
          (taken = false → after = roster) ∧ (taken = true → Takes roster after item)) ∧
      (∀ item, ∃ found after, (Call.remove item).perform roster = (found, after) ∧
        (found = true ↔ item ∈ roster.items) ∧
          (found = false → after = roster) ∧ (found = true → Loses roster after item)) ∧
      roster.removeEach roster.iterate = (roster.items.map (·, true), roster.drain) ∧
        roster.drain.items = [] := by
  intro roster
  have hbound : (roster.capacity : Int) = bound := by
    rw [capacity_run, (ofList_eq_ok_iff.1 h).1]
  have hle := roster.length_le
  refine ⟨by omega, fun item => ⟨_, _, perform_push roster item, ?_⟩,
    fun item => ⟨_, _, rfl, contains_iff, ?_, ?_⟩, removeEach_items roster⟩
  · cases hpush : roster.push? item with
    | none =>
      have hfull : roster.capacity ≤ roster.items.length := of_decide_eq_true (push?_eq_none_iff.1 hpush)
      exact ⟨⟨fun _ => by omega, fun _ => rfl⟩, fun _ => rfl, nofun⟩
    | some longer =>
      have hroom : roster.items.length < roster.capacity := (push?_eq_some_iff.1 hpush).1
      exact ⟨⟨nofun, fun hfull => by omega⟩, nofun, fun _ => takes_of_push? hpush⟩
  · intro hmissing
    exact remove_of_notMem fun hmem => Bool.false_ne_true (hmissing.symm.trans (contains_iff.2 hmem))
  · exact fun hfound => loses_remove (contains_iff.1 hfound)

/-- A number and a name, the number twice, fill a roster. A push is in vain; the number leaves, where it stood
first, and comes back; the name leaves; and the roster is drained. -/
theorem rosters_are_bounded_multisets_numberTwice :
    let calls : List (Call AccountId) := [.push (.name "b"), .remove (.number 1), .push (.number 1)]
    ∃ start, ofList 3 [.number 1, .name "a", .number 1] = .ok start ∧
      (start.run calls).items = [.number 1, .name "a", .number 1] ∧
      ((Call.push (.name "b")).perform (start.run calls)).1 = false ∧
      ((Call.remove (.name "a")).perform (start.run calls)).2.items.count (.number 1) = 2 ∧
      ((start.run calls).removeEach (start.run calls).iterate).1 =
        [(.number 1, true), (.name "a", true), (.number 1, true)] := by
  intro calls
  let start : Roster AccountId := ⟨3, [.number 1, .name "a", .number 1], by decide⟩
  have hstart : ofList 3 [.number 1, .name "a", .number 1] = .ok start := rfl
  have hitems : (start.run calls).items = [.number 1, .name "a", .number 1] := rfl
  obtain ⟨-, hpush, hremove, hdrain, -⟩ := rosters_are_bounded_multisets hstart calls
  obtain ⟨taken, _, htaken, hvain, -, -⟩ := hpush (.name "b")
  obtain ⟨found, _, hfound, hthere, -, hloses⟩ := hremove (.name "a")
  have hcount := (hloses (hthere.2 (by simp [hitems]))).count_eq (.number 1)
  rw [hitems] at hcount hdrain hvain
  refine ⟨start, hstart, hitems, ?_, ?_, ?_⟩
  · rw [htaken]
    exact hvain.2 rfl
  · rw [hfound]
    exact hcount.symm
  · rw [hdrain]
    rfl

end EditionMarket.Roster
