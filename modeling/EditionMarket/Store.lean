import EditionMarket.Fault
import EditionMarket.Store.Journal

/-!
# Stores

A store has contents, limits on its rosters and a ceiling for its counters. While a transaction is
open it also has a journal: whoever takes something out of a slot or puts something into it touches the
slot first, so that a transaction that fails can be undone.

Work on a store is a `StoreM` program. A program that stops with a fault leaves the store as it was at
that moment; undoing is the business of `transaction` alone.
-/

namespace EditionMarket

/-- A store. -/
structure Store where
  limits : Limits := default
  /-- The largest id that the counters give out. -/
  ceiling : Int := Argument.largestId
  contents : Contents := {}
  /-- What has been touched since the open transaction began, if one is open. -/
  journal : Option Journal := none
deriving DecidableEq

instance : Inhabited Store := ⟨{}⟩

/-- Programs that work on a store. -/
abbrev StoreM := EStateM Fault Store

namespace Store

/-! ## Slots -/

/-- Remembers what a slot holds if a transaction is open and the slot is not remembered yet. -/
def touch (store : Store) (slot : Slot) : Store :=
  { store with journal := store.journal.map fun journal => journal.record slot (store.contents.read slot) }

/-- Lets a slot hold something. -/
def write (store : Store) (slot : Slot) (held : slot.Held) : Store :=
  { store with contents := store.contents.write slot held }

/-- The slots that the open transaction has touched, in order. -/
def touched (store : Store) : List Slot := (store.journal.map Journal.slots).getD []

/-! ## Transactions -/

/-- Opens a transaction. -/
def begin (store : Store) : Store := { store with journal := some [] }

/-- Closes the transaction and keeps what it did. -/
def commit (store : Store) : Store := { store with journal := none }

/-- Closes the transaction and undoes what it did. -/
def rollBack (store : Store) : Store :=
  { store with
    contents := (store.journal.getD []).restore store.contents
    journal := none }

end Store

/-- States that a store is a part of. -/
class HasStore (τ : Type) where
  /-- The store. -/
  store : τ → Store
  /-- The state with another store. -/
  withStore : τ → Store → τ

instance : HasStore Store := ⟨id, fun _ store => store⟩

/-- States on which work can be undone. -/
class Transactional (τ : Type) where
  /-- Whether a transaction is open. -/
  isOpen : τ → Bool
  /-- Opens a transaction. -/
  begin : τ → τ
  /-- Closes the transaction and keeps what it did. -/
  commit : τ → τ
  /-- Closes the transaction and undoes what it did. -/
  rollBack : τ → τ

instance {τ : Type} [HasStore τ] : Transactional τ where
  isOpen state := (HasStore.store state).journal.isSome
  begin state := HasStore.withStore state (HasStore.store state).begin
  commit state := HasStore.withStore state (HasStore.store state).commit
  rollBack state := HasStore.withStore state (HasStore.store state).rollBack

/-- Runs a program so that it either does all of its work or none. Inside an open transaction the program
becomes a part of that one, and whether its work is kept is decided there. -/
def transaction {ε τ α : Type} [Transactional τ] (program : EStateM ε τ α) : EStateM ε τ α := fun state =>
  -- The open transaction's journal goes on recording.
  if Transactional.isOpen state then program state
  -- This transaction is the outermost one, and the journal is its own.
  else
    match program (Transactional.begin state) with
    | .ok value final => .ok value (Transactional.commit final)
    | .error fault final => .error fault (Transactional.rollBack final)

section

variable {ε τ α : Type} [Transactional τ] {program : EStateM ε τ α} {state final : τ}

/-- Inside an open transaction, a transaction is its program and nothing else. -/
theorem transaction_of_isOpen (h : Transactional.isOpen state = true) :
    transaction program state = program state :=
  if_pos h

/-- Where its program succeeds, the outermost transaction is closed and kept. -/
theorem transaction_of_ok {value : α} (hc : Transactional.isOpen state = false)
    (h : program (Transactional.begin state) = .ok value final) :
    transaction program state = .ok value (Transactional.commit final) := by
  simp only [transaction, hc, h, Bool.false_eq_true, if_false]

/-- Where its program fails, the outermost transaction is closed and undone. -/
theorem transaction_of_error {fault : ε} (hc : Transactional.isOpen state = false)
    (h : program (Transactional.begin state) = .error fault final) :
    transaction program state = .error fault (Transactional.rollBack final) := by
  simp only [transaction, hc, h, Bool.false_eq_true, if_false]

end

namespace StoreM

/-- Stops with a refusal. -/
def refuse {α : Type} (refusal : Refusal) : StoreM α := throw (.refused refusal)

/-- Stops with a refusal unless a check passes. -/
def ofExcept {α : Type} : Except Refusal α → StoreM α
  | .ok value => pure value
  | .error refusal => refuse refusal

/-- What a slot holds, for a look only. -/
def peek (slot : Slot) : StoreM slot.Held := do return (← get).contents.read slot

/-- What a slot holds, for work on it. -/
def fetch (slot : Slot) : StoreM slot.Held := do
  modify (·.touch slot)
  peek slot

/-- Lets a slot hold something. -/
def assign (slot : Slot) (held : slot.Held) : StoreM Unit := do
  modify (·.touch slot)
  modify (·.write slot held)

end StoreM

end EditionMarket
