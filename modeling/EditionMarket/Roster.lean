import EditionMarket.Value.Display
import EditionMarket.Value.Same

/-!
# Rosters

A roster is a list of ids with a fixed capacity. A full roster takes nothing more in. When an id
leaves, the last one takes its place, so that removing one item moves one other at most. Items are
found by `==`, so in a roster of values an item is found by any value that counts as the same.

Main statements: `push?_eq_some_iff` and `push?_eq_none_iff` say what pushing an item gives, and
`contains_iff` which items are there.
-/

namespace EditionMarket

/-- A list that never holds more than `capacity` items. -/
structure Roster (α : Type) where
  capacity : Nat
  items : List α
  length_le : items.length ≤ capacity
deriving DecidableEq

namespace Roster

variable {α : Type}

/-! ## Making rosters -/

/-- Why a roster cannot be made. -/
inductive Fault
  /-- The capacity is negative. -/
  | negative (capacity : Int)
  /-- There are more items than the roster can hold. -/
  | full (capacity : Nat)
deriving DecidableEq

/-- The message of a fault. -/
def Fault.message : Fault → String
  | negative capacity => s!"bound must be >= 0, got {capacity}"
  | full capacity => s!"Index is full (bound {capacity})"

/-- A roster without items. -/
def empty (capacity : Nat) : Roster α := ⟨capacity, [], Nat.zero_le _⟩

/-- A roster of given items. -/
def ofList (capacity : Int) (items : List α) : Except Fault (Roster α) :=
  if capacity < 0 then .error (.negative capacity)
  else if h : items.length ≤ capacity.toNat then .ok ⟨capacity.toNat, items, h⟩
  else .error (.full capacity.toNat)

/-! ## Operations -/

/-- The number of items. -/
def size (roster : Roster α) : Nat := roster.items.length

/-- Whether a roster can take nothing more in. -/
def isFull (roster : Roster α) : Bool := roster.capacity ≤ roster.items.length

/-- Adds an item at the end, unless the roster is full. -/
def push? (roster : Roster α) (item : α) : Option (Roster α) :=
  if h : roster.items.length < roster.capacity then
    some ⟨roster.capacity, roster.items ++ [item], by
      rw [List.length_append, List.length_singleton]; exact h⟩
  else none

variable [BEq α]

/-- Whether an item is there. -/
def contains (roster : Roster α) (item : α) : Bool := roster.items.contains item

/-- Takes the last item off a list and puts it where `item` stood first. Where `item` stood in the
last place only, there is no such place any more, and the list is merely shorter. -/
def swapOut (item : α) (items : List α) : List α :=
  match items.getLast? with
  | none => []
  | some last => items.dropLast.set (items.idxOf item) last

/-- The list is shorter by one. -/
theorem length_swapOut (item : α) (items : List α) :
    (swapOut item items).length = items.length - 1 := by
  unfold swapOut
  cases items <;> simp [List.getLast?_cons]

/-- Removes the first occurrence of an item; nothing happens if there is none. -/
def remove (roster : Roster α) (item : α) : Roster α :=
  if roster.contains item then
    ⟨roster.capacity, swapOut item roster.items, by
      rw [length_swapOut]; exact Nat.le_trans (Nat.sub_le _ _) roster.length_le⟩
  else roster

omit [BEq α] in
/-- What is seen by going through a roster: the items that it has when that begins. They are a copy, so
whoever changes the roster on the way sees the same items. -/
def iterate (roster : Roster α) : List α := roster.items

/-- Removes items one after the other. Tells of each whether it was there, and what is left in the end. -/
def removeEach (roster : Roster α) : List α → List (α × Bool) × Roster α
  | [] => ([], roster)
  | item :: rest =>
    let (seen, last) := (roster.remove item).removeEach rest
    ((item, roster.contains item) :: seen, last)

/-- Removes the listed items one after the other. -/
def removeAll (roster : Roster α) (items : List α) : Roster α := items.foldl remove roster

/-- Removes every item that is there at the start, one after the other. -/
def drain (roster : Roster α) : Roster α := roster.removeAll roster.iterate

/-! ## What the operations do -/

omit [BEq α] in
/-- Two rosters are equal if they have the same capacity and the same items. -/
theorem ext_items {a b : Roster α} (hc : a.capacity = b.capacity) (hi : a.items = b.items) :
    a = b := by
  cases a
  cases b
  simp_all

omit [BEq α] in
/-- An item enters a roster that is not full, at the end. -/
theorem push?_eq_some_iff {roster next : Roster α} {item : α} :
    roster.push? item = some next ↔
      roster.size < roster.capacity ∧ next.capacity = roster.capacity ∧
        next.items = roster.items ++ [item] := by
  unfold push? size
  split
  case isTrue h =>
    rw [Option.some.injEq]
    constructor
    · rintro rfl
      exact ⟨h, rfl, rfl⟩
    · rintro ⟨-, hc, hi⟩
      exact ext_items hc.symm hi.symm
  case isFalse h =>
    constructor
    · intro contra
      cases contra
    · intro hyp
      exact absurd hyp.1 h

omit [BEq α] in
/-- A full roster, and no other, takes nothing in. -/
theorem push?_eq_none_iff {roster : Roster α} {item : α} :
    roster.push? item = none ↔ roster.isFull = true := by
  unfold push? isFull
  split <;> simp <;> omega

/-- Where `==` is equality, the items are found that stand in the roster. -/
theorem contains_iff [LawfulBEq α] {roster : Roster α} {item : α} :
    roster.contains item = true ↔ item ∈ roster.items := by
  simp [contains]

/-- Removal keeps the capacity. -/
@[simp] theorem capacity_remove (roster : Roster α) (item : α) :
    (roster.remove item).capacity = roster.capacity := by
  unfold remove
  split <;> rfl

/-- The text of a roster of values. -/
def display (roster : Roster Value) : String :=
  s!"BoundedIndex(bound={roster.capacity}, items={(Value.list roster.items).quoted})"

end Roster

/-! ## Limits -/

/-- The capacities of the rosters of a store: how many creators an account may own, how many editions a
creator may mint, and how many tokens an account may hold. None of the three is zero. -/
structure Limits where
  creatorsPerAccount : Nat := 16
  editionsPerCreator : Nat := 256
  tokensPerAccount : Nat := 1024
  creatorsPerAccount_pos : 0 < creatorsPerAccount := by decide
  editionsPerCreator_pos : 0 < editionsPerCreator := by decide
  tokensPerAccount_pos : 0 < tokensPerAccount := by decide
deriving DecidableEq

instance : Inhabited Limits := ⟨{}⟩

end EditionMarket
