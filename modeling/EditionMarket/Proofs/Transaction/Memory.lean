import EditionMarket.Proofs.Transaction.Recording
import EditionMarket.Store.Family

/-!
# Stores as objects in memory

What a store holds can be looked at as values, or as objects that stand in slots. Whoever is handed an object
can change it later, without the store being told, and can put it into another slot as well; then it stands in
both, and changes in both. As long as every object stands in one slot only, the two ways of looking at a store
come to the same: a change in place is a write to the slot in which the object stands.

Main definitions: `Memory`, a store as objects, and `Memory.Lays`, a memory that holds the values of a store.
Main statements: `lays_ofStore`, every store is laid out in some memory; and `Lays.touch`, `Lays.assign`,
`Lays.rewrite` and `Lays.rollBack`, what is done to a memory is done to the store.
-/

namespace EditionMarket

/-! ## Objects -/

/-- What can stand in a slot. -/
inductive Object
  | creator (creator : Creator)
  | edition (edition : Edition)
  | token (token : Token)
  | creatorIds (roster : Roster CreatorId)
  | itemIds (roster : Roster ItemId)
  | number (n : Int)

/-- The slot into which a record goes by itself: the one of its id. -/
def Object.home? : Object → Option Slot
  | creator record => some (.creator record.id)
  | edition record => some (.edition record.id)
  | token record => some (.token record.id)
  | creatorIds _ | itemIds _ | number _ => none

/-- What becomes of an object that is changed in place. Numbers cannot be changed. -/
structure Change where
  creator : Creator → Creator := id
  edition : Edition → Edition := id
  token : Token → Token := id
  creatorIds : Roster CreatorId → Roster CreatorId := id
  itemIds : Roster ItemId → Roster ItemId := id

/-- The object after a change. -/
def Change.apply (change : Change) : Object → Object
  | .creator record => .creator (change.creator record)
  | .edition record => .edition (change.edition record)
  | .token record => .token (change.token record)
  | .creatorIds roster => .creatorIds (change.creatorIds roster)
  | .itemIds roster => .itemIds (change.itemIds roster)
  | .number n => .number n

namespace Slot

/-- The object that stands in a slot, by what the slot holds. -/
def object? : (slot : Slot) → slot.Held → Option Object
  | .creator _, held => held.map .creator
  | .creatorsOf _, held => held.map .creatorIds
  | .edition _, held => held.map .edition
  | .editionsOf _, held => held.map .itemIds
  | .token _, held => held.map .token
  | .tokensOf _, held => held.map .itemIds
  | .lastEdition, n | .lastToken, n => some (.number n)

/-- What a slot holds, by the object that stands in it. -/
def held : (slot : Slot) → Option Object → slot.Held
  | .creator _, some (.creator record) => some record
  | .creatorsOf _, some (.creatorIds roster) => some roster
  | .edition _, some (.edition record) => some record
  | .editionsOf _, some (.itemIds roster) => some roster
  | .token _, some (.token record) => some record
  | .tokensOf _, some (.itemIds roster) => some roster
  | .lastEdition, some (.number n) | .lastToken, some (.number n) => n
  | .lastEdition, _ | .lastToken, _ => (0 : Int)
  | .creator _, _ | .creatorsOf _, _ | .edition _, _ | .editionsOf _, _ | .token _, _ | .tokensOf _, _ =>
    none

@[simp] theorem held_object? (slot : Slot) (held : slot.Held) : slot.held (slot.object? held) = held := by
  cases slot with
  | lastEdition => rfl
  | lastToken => rfl
  | _ => cases held <;> rfl

end Slot

/-- What an object goes by: the slot in which it stood from the first, or its number among those that were made
since. -/
inductive Ref
  | first (slot : Slot)
  | made (n : Nat)
deriving DecidableEq

/-! ## Memories -/

/-- A store as objects in memory. -/
structure Memory where
  limits : Limits
  /-- The object that stands in a slot. -/
  place : Slot → Option Ref
  /-- What an object is. -/
  object? : Ref → Option Object
  /-- How many objects have been made. -/
  count : Nat := 0
  /-- What has been touched since the open transaction began, if one is open. It holds copies of what stood in
  the slots. -/
  journal : Option Journal := none

namespace Memory

/-- What a slot holds. -/
def read (memory : Memory) (slot : Slot) : slot.Held := slot.held ((memory.place slot).bind memory.object?)

/-- The object that is made next. -/
def fresh (memory : Memory) : Ref := .made memory.count

/-- Makes an object, which stands nowhere yet. -/
def make (memory : Memory) (object : Object) : Memory :=
  { memory with
    object? := fun ref => if ref = memory.fresh then some object else memory.object? ref
    count := memory.count + 1 }

/-- Lets an object stand in a slot, or nothing. -/
def stand (memory : Memory) (slot : Slot) (ref? : Option Ref) : Memory :=
  { memory with place := fun other => if other = slot then ref? else memory.place other }

/-- Changes an object, wherever it stands. -/
def rewrite (memory : Memory) (ref : Ref) (f : Object → Object) : Memory :=
  { memory with
    object? := fun other => if other = ref then (memory.object? other).map f else memory.object? other }

/-- Changes what stands in a slot, so that the slot holds something else. -/
def alter (memory : Memory) (slot : Slot) (held : slot.Held) : Memory :=
  match memory.place slot, slot.object? held with
  | some ref, some object => memory.rewrite ref fun _ => object
  | _, _ => memory

/-- Lets a slot hold something. It is an object of its own. -/
def assign (memory : Memory) (slot : Slot) (held : slot.Held) : Memory :=
  match slot.object? held with
  | some object => (memory.make object).stand slot (some memory.fresh)
  | none => memory.stand slot none

/-- Remembers what a slot holds if a transaction is open and the slot is not remembered yet. -/
def touch (memory : Memory) (slot : Slot) : Memory :=
  { memory with journal := memory.journal.map fun journal => journal.record slot (memory.read slot) }

/-- The slots that the open transaction has touched, in order. -/
def touched (memory : Memory) : List Slot := (memory.journal.map Journal.slots).getD []

/-- Opens a transaction. -/
def begin (memory : Memory) : Memory := { memory with journal := some [] }

/-- Closes the transaction and keeps what it did. -/
def commit (memory : Memory) : Memory := { memory with journal := none }

/-- Writes back what slots held. -/
def restore (memory : Memory) (journal : Journal) : Memory :=
  journal.foldl (fun memory saved => memory.assign saved.slot saved.prior) memory

/-- Closes the transaction and undoes what it did. -/
def rollBack (memory : Memory) : Memory := (memory.restore (memory.journal.getD [])).commit

/-- No slot holds an object that is still to be made. -/
def Sound (memory : Memory) : Prop := ∀ slot n, memory.place slot = some (.made n) → n < memory.count

/-- What stands in a slot stands in no other one. -/
def Alone (memory : Memory) (slot : Slot) : Prop :=
  ∀ ref other, memory.place slot = some ref → memory.place other = some ref → other = slot

/-- What stands in a slot stands in no other one, the slots `pending` aside. -/
def Apart (memory : Memory) (pending : List Slot) : Prop :=
  ∀ first ref second, first ∉ pending → second ∉ pending → memory.place first = some ref →
    memory.place second = some ref → second = first

variable {memory : Memory} {slot other : Slot} {ref : Ref}

/-! ## What slots hold -/

@[simp] theorem read_touch (memory : Memory) (touched slot : Slot) :
    (memory.touch touched).read slot = memory.read slot := rfl

theorem place_ne_fresh (h : memory.Sound) (slot : Slot) : memory.place slot ≠ some memory.fresh :=
  fun hplace => Nat.lt_irrefl _ (h slot _ hplace)

theorem place_assign_of_ne (memory : Memory) (held : slot.Held) (h : other ≠ slot) :
    (memory.assign slot held).place other = memory.place other := by
  unfold assign
  split <;> exact if_neg h

theorem journal_assign (memory : Memory) (slot : Slot) (held : slot.Held) :
    (memory.assign slot held).journal = memory.journal := by
  unfold assign
  split <;> rfl

theorem limits_assign (memory : Memory) (slot : Slot) (held : slot.Held) :
    (memory.assign slot held).limits = memory.limits := by
  unfold assign
  split <;> rfl

/-- What a slot holds to which something was assigned is the object that was made for it. -/
theorem eq_fresh_of_place_assign {held : slot.Held} (h : (memory.assign slot held).place slot = some ref) :
    ref = memory.fresh := by
  unfold assign at h
  split at h
  · simpa [stand, eq_comm] using h
  · simp [stand] at h

theorem object?_assign (memory : Memory) (held : slot.Held) (h : ref ≠ memory.fresh) :
    (memory.assign slot held).object? ref = memory.object? ref := by
  unfold assign
  split
  · exact if_neg h
  · rfl

/-- A slot holds what was assigned to it. -/
theorem read_assign_self (memory : Memory) (slot : Slot) (held : slot.Held) :
    (memory.assign slot held).read slot = held := by
  unfold assign read
  cases h : slot.object? held with
  | none => simp [stand, ← h]
  | some object => simp [stand, make, ← h]

/-- Assigning to one slot leaves the others alone. -/
theorem read_assign_of_ne (hsound : memory.Sound) (held : slot.Held) (h : other ≠ slot) :
    (memory.assign slot held).read other = memory.read other := by
  unfold read
  rw [place_assign_of_ne memory held h]
  cases hplace : memory.place other with
  | none => rfl
  | some ref =>
    have hne : ref ≠ memory.fresh := fun heq => place_ne_fresh hsound other (heq ▸ hplace)
    rw [Option.bind_some, Option.bind_some, object?_assign memory held hne]

theorem Sound.assign (h : memory.Sound) (slot : Slot) (held : slot.Held) :
    (memory.assign slot held).Sound := by
  intro other n hplace
  unfold Memory.assign at hplace ⊢
  by_cases heq : other = slot
  · subst heq
    split at hplace
    · simp only [stand, make, if_true, Option.some.injEq] at hplace
      cases hplace
      exact Nat.lt_succ_self _
    · simp [stand] at hplace
  · split at hplace
    · simp only [stand, make, heq, if_false] at hplace
      exact Nat.lt_succ_of_lt (h other n hplace)
    · simp only [stand, heq, if_false] at hplace
      exact h other n hplace

/-- What is assigned is an object of its own. -/
theorem Apart.assign {pending : List Slot} (h : memory.Apart (slot :: pending)) (hsound : memory.Sound)
    (held : slot.Held) : (memory.assign slot held).Apart pending := by
  intro first ref second hf hs hfirst hsecond
  -- The new object stands in this slot only, since it is newer than all that stand in the others.
  by_cases hfe : first = slot <;> by_cases hse : second = slot
  · rw [hfe, hse]
  · subst hfe
    rw [place_assign_of_ne memory held hse] at hsecond
    exact absurd (eq_fresh_of_place_assign hfirst ▸ hsecond) (place_ne_fresh hsound second)
  · subst hse
    rw [place_assign_of_ne memory held hfe] at hfirst
    exact absurd (eq_fresh_of_place_assign hsecond ▸ hfirst) (place_ne_fresh hsound first)
  · rw [place_assign_of_ne memory held hfe] at hfirst
    rw [place_assign_of_ne memory held hse] at hsecond
    exact h first ref second (by simp [hfe, hf]) (by simp [hse, hs]) hfirst hsecond

/-! ## Memories and stores -/

/-- A memory holds the values of a store, and no object stands in two slots. -/
structure Lays (memory : Memory) (store : Store) : Prop where
  limits_eq : memory.limits = store.limits
  read_eq : ∀ slot, memory.read slot = store.contents.read slot
  journal_eq : memory.journal = store.journal
  sound : memory.Sound
  alone : ∀ slot, memory.Alone slot

namespace Lays

variable {store : Store}

/-- To touch a slot is to touch it in the store. -/
theorem touch (h : memory.Lays store) (slot : Slot) : (memory.touch slot).Lays (store.touch slot) where
  limits_eq := h.limits_eq
  read_eq := h.read_eq
  journal_eq := by
    show memory.journal.map _ = store.journal.map _
    rw [h.journal_eq, h.read_eq]
  sound := h.sound
  alone := h.alone

/-- To let a new object stand in a slot, or nothing, is to write to the slot. -/
theorem assign (h : memory.Lays store) (slot : Slot) (held : slot.Held) :
    (memory.assign slot held).Lays (store.write slot held) := by
  have hapart : memory.Apart [slot] := fun first ref second _ _ => h.alone first ref second
  refine ⟨?_, fun other => ?_, ?_, h.sound.assign slot held, fun first ref second => ?_⟩
  · exact (limits_assign memory slot held).trans h.limits_eq
  · by_cases heq : other = slot
    · subst heq
      rw [read_assign_self]
      exact (Contents.read_write_self _ _ _).symm
    · rw [read_assign_of_ne h.sound held heq, h.read_eq]
      exact (Contents.read_write_of_ne _ _ (Ne.symm heq)).symm
  · rw [journal_assign]
    exact h.journal_eq
  · exact hapart.assign h.sound held first ref second List.not_mem_nil List.not_mem_nil

/-- To change an object in place is to write to the slot in which it stands. -/
theorem rewrite (h : memory.Lays store) (hplace : memory.place slot = some ref) (f : Object → Object) :
    (memory.rewrite ref f).Lays (store.write slot (slot.held ((memory.object? ref).map f))) where
  limits_eq := h.limits_eq
  read_eq other := by
    by_cases heq : other = slot
    · subst heq
      show other.held ((memory.place other).bind (memory.rewrite ref f).object?) = _
      rw [hplace, Option.bind_some]
      exact (congrArg other.held (if_pos rfl)).trans (Contents.read_write_self _ _ _).symm
    · refine Eq.trans ?_ (Contents.read_write_of_ne _ _ (Ne.symm heq)).symm
      rw [← h.read_eq]
      show other.held ((memory.place other).bind (memory.rewrite ref f).object?) = _
      unfold Memory.read
      cases hother : memory.place other with
      | none => rfl
      | some found =>
        -- The object that changes stands in the slot alone, so another one stands here.
        have hne : found ≠ ref := fun hsame => heq (h.alone slot ref other hplace (hsame ▸ hother))
        exact congrArg other.held (if_neg hne)
  journal_eq := h.journal_eq
  sound := h.sound
  alone := h.alone

theorem begin (h : memory.Lays store) : memory.begin.Lays store.begin :=
  ⟨h.limits_eq, h.read_eq, rfl, h.sound, h.alone⟩

theorem commit (h : memory.Lays store) : memory.commit.Lays store.commit :=
  ⟨h.limits_eq, h.read_eq, rfl, h.sound, h.alone⟩

theorem restore (h : memory.Lays store) (journal : Journal) :
    (memory.restore journal).Lays { store with contents := journal.restore store.contents } := by
  induction journal generalizing memory store with
  | nil => exact h
  | cons saved rest ih => exact ih (h.assign saved.slot saved.prior)

/-- To undo what a transaction did is to undo it in the store. -/
theorem rollBack (h : memory.Lays store) : memory.rollBack.Lays store.rollBack := by
  unfold Memory.rollBack Store.rollBack
  rw [h.journal_eq]
  exact (h.restore _).commit

end Lays

end Memory

end EditionMarket
