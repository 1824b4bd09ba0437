import EditionMarket.Proofs.Program
import EditionMarket.Proofs.Transaction.Recording
import EditionMarket.Store.Family
import EditionMarket.Store.Numbering

/-!
# Programs that leave nothing unrecorded

A program is recorded if the journal of an open transaction covers all that the program changes, however
the program ends, and if the program would do the same were no transaction open. For such a program a
transaction is what it promises to be.

Main statement: `transaction_eq`, a recorded program that succeeds in a transaction has done what it does
on its own, and one that fails has left the store alone.
-/

namespace EditionMarket

/-! ## States that a store is a part of -/

/-- Putting a store into a state changes the store and nothing else. -/
class LawfulStore (τ : Type) [HasStore τ] : Prop where
  store_withStore : ∀ (state : τ) (store : Store),
    HasStore.store (HasStore.withStore state store) = store
  withStore_store : ∀ state : τ, HasStore.withStore state (HasStore.store state) = state
  withStore_withStore : ∀ (state : τ) (first second : Store),
    HasStore.withStore (HasStore.withStore state first) second = HasStore.withStore state second

instance : LawfulStore Store := ⟨fun _ _ => rfl, fun _ => rfl, fun _ _ _ => rfl⟩

variable {ε τ α β : Type} [HasStore τ]

/-- The state with its transaction closed. -/
def closed (state : τ) : τ := HasStore.withStore state (HasStore.store state).commit

/-- Closing is all that has to be done to a state whose transaction has just begun. -/
theorem closed_begin [LawfulStore τ] {state : τ} (h : (HasStore.store state).journal = none) :
    closed (HasStore.withStore state (HasStore.store state).begin) = state := by
  unfold closed
  rw [LawfulStore.store_withStore, LawfulStore.withStore_withStore]
  show HasStore.withStore state (HasStore.store state).commit = state
  rw [Store.commit_of_journal_eq_none h, LawfulStore.withStore_store]

/-! ## Recorded programs -/

/-- A program is recorded if, started in an open transaction that has touched the slots `needs`, it
leaves the transaction's journal covering all changes, and does the same when no transaction is open.
If it succeeds, the slots `gained` have been touched as well. -/
def Recorded (needs : List Slot) (program : EStateM ε τ α) (gained : List Slot) : Prop :=
  ∀ (start : Store) (held : List Slot) (state : τ), needs ⊆ held →
    Store.Recording start held (HasStore.store state) →
    match program state with
    | .ok value final =>
      Store.Recording start (gained ++ held) (HasStore.store final) ∧
        program (closed state) = .ok value (closed final)
    | .error fault final =>
      Store.Recording start held (HasStore.store final) ∧
        program (closed state) = .error fault (closed final)

/-- A recorded program that succeeds in a transaction has done what it does on its own. One that fails
has left the store alone. -/
theorem transaction_eq [LawfulStore τ] {program : EStateM ε τ α} {gained : List Slot}
    (hp : Recorded [] program gained) {state : τ} (hn : (HasStore.store state).journal = none) :
    transaction program state =
      match program state with
      | .ok value final => .ok value final
      | .error fault final => .error fault (HasStore.withStore final (HasStore.store state)) := by
  have hs : Store.Recording (HasStore.store state) []
      (HasStore.store (HasStore.withStore state (HasStore.store state).begin)) := by
    rw [LawfulStore.store_withStore]
    exact Store.Recording.begin _
  -- `hrun` compares the program in the transaction with the same program where none is open.
  have hrun := hp _ _ _ (List.Subset.refl _) hs
  rw [closed_begin hn] at hrun
  have hclosed : Transactional.isOpen state = false := congrArg Option.isSome hn
  cases hr : program (HasStore.withStore state (HasStore.store state).begin) with
  | ok value final =>
    rw [hr] at hrun
    obtain ⟨-, heq⟩ := hrun
    rw [heq]
    exact transaction_of_ok hclosed hr
  | error fault final =>
    rw [hr] at hrun
    obtain ⟨hrec, heq⟩ := hrun
    rw [heq, transaction_of_error hclosed hr]
    dsimp only
    unfold closed
    rw [LawfulStore.withStore_withStore]
    show EStateM.Result.error fault (HasStore.withStore final (HasStore.store final).rollBack) = _
    rw [hrec.rollBack_eq, Store.commit_of_journal_eq_none hn]

/-- Where the store has a journal, a transaction is open. -/
theorem transaction_of_open {program : EStateM ε τ α} {state : τ} {journal : Journal}
    (hj : (HasStore.store state).journal = some journal) :
    transaction program state = program state :=
  transaction_of_isOpen (congrArg Option.isSome hj)

namespace Recorded

variable {needs gained more : List Slot}

/-! ## Putting programs together -/

theorem pure (value : α) : Recorded needs (Pure.pure value : EStateM ε τ α) [] := by
  intro start held state _ hs
  exact ⟨hs, rfl⟩

theorem throw (fault : ε) : Recorded needs (MonadExcept.throw fault : EStateM ε τ α) [] := by
  intro start held state _ hs
  exact ⟨hs, rfl⟩

/-- One program after the other. The second one can count on what the first one has touched. -/
theorem seq {first : EStateM ε τ α} {second : α → EStateM ε τ β}
    (hfirst : Recorded needs first gained)
    (hsecond : ∀ value, Recorded (gained ++ needs) (second value) more) :
    Recorded needs (first >>= second) (more ++ gained) := by
  intro start held state hn hs
  have h₁ := hfirst start held state hn hs
  cases hr : first state with
  | error fault final =>
    rw [hr] at h₁
    rw [Program.bind_of_error hr]
    exact ⟨h₁.1, Program.bind_of_error h₁.2 second⟩
  | ok value middle =>
    rw [hr] at h₁
    rw [Program.bind_of_ok hr, Program.bind_of_ok h₁.2]
    -- The second program starts with what was held before and what the first one has gained.
    have hsub : gained ++ needs ⊆ gained ++ held :=
      List.append_subset.2
        ⟨List.subset_append_left _ _, List.subset_append_of_subset_right _ hn⟩
    have h₂ := hsecond value start (gained ++ held) middle hsub h₁.1
    cases hr₂ : second value middle with
    | ok result final =>
      rw [hr₂] at h₂
      rw [List.append_assoc]
      exact h₂
    | error fault final =>
      rw [hr₂] at h₂
      -- After a fault nothing is promised of what was gained on the way.
      exact ⟨h₂.1.mono (List.subset_append_right _ _), h₂.2⟩

/-- Less may be claimed of what has been touched. -/
theorem weaken {program : EStateM ε τ α} (hp : Recorded needs program gained) {fewer : List Slot}
    (hf : fewer ⊆ gained) : Recorded needs program fewer := by
  intro start held state hn hs
  have h := hp start held state hn hs
  cases hr : program state with
  | ok value final =>
    rw [hr] at h
    refine ⟨h.1.mono ?_, h.2⟩
    exact List.append_subset.2
      ⟨List.subset_append_of_subset_left _ hf, List.subset_append_right _ _⟩
  | error fault final =>
    rw [hr] at h
    exact h

/-- One program after the other, where only what the second one touches is asked for. -/
theorem bind {first : EStateM ε τ α} {second : α → EStateM ε τ β}
    (hfirst : Recorded needs first gained)
    (hsecond : ∀ value, Recorded (gained ++ needs) (second value) more) :
    Recorded needs (first >>= second) more :=
  (hfirst.seq hsecond).weaken (List.subset_append_left _ _)

/-- One program after the other, where only what the first one touches is asked for. -/
theorem bind_keep {first : EStateM ε τ α} {second : α → EStateM ε τ β}
    (hfirst : Recorded needs first gained)
    (hsecond : ∀ value, Recorded (gained ++ needs) (second value) []) :
    Recorded needs (first >>= second) gained :=
  hfirst.seq hsecond

theorem throw_bind (fault : ε) (next : α → EStateM ε τ β) :
    Recorded needs (MonadExcept.throw fault >>= next) gained := by
  intro start held state _ hs
  exact ⟨hs, rfl⟩

/-- A look at the whole state, if nobody can tell from what follows whether a transaction is open. -/
theorem get_bind {next : τ → EStateM ε τ α} (hclosed : ∀ state, next (closed state) = next state)
    (hnext : ∀ state, Recorded needs (next state) gained) :
    Recorded needs (MonadState.get >>= next) gained := by
  intro start held state hn hs
  have h := hnext state start held state hn hs
  have heq : (MonadState.get >>= next) (closed state) = next state (closed state) := by
    show next (closed state) (closed state) = _
    rw [hclosed]
  rw [heq]
  exact h

theorem discard {program : EStateM ε τ α} (hp : Recorded needs program gained) :
    Recorded needs (Functor.discard program) [] := by
  rw [Program.discard_eq_bind]
  exact hp.bind fun _ => pure ()

theorem ite {c : Prop} [Decidable c] {yes no : EStateM ε τ α}
    (hyes : Recorded needs yes gained) (hno : Recorded needs no gained) :
    Recorded needs (if c then yes else no) gained := by
  split
  · exact hyes
  · exact hno

/-! ## Work on a store -/

theorem peek (slot : Slot) : Recorded needs (StoreM.peek slot) [] := by
  intro start held store _ hs
  exact ⟨hs, rfl⟩

theorem touch (slot : Slot) :
    Recorded needs (modify (·.touch slot) : StoreM Unit) [slot] := by
  intro start held store _ hs
  exact ⟨hs.touch slot, rfl⟩

/-- What a slot that has been touched holds may be replaced. -/
theorem write {slot : Slot} (h : slot ∈ needs) (x : slot.Held) :
    Recorded needs (modify (·.write slot x) : StoreM Unit) [] := by
  intro start held store hn hs
  exact ⟨hs.write (hn h) x, rfl⟩

/-- A slot is touched before what it holds is handed out. -/
theorem fetch (slot : Slot) : Recorded needs (StoreM.fetch slot) [slot] :=
  (touch slot).bind_keep fun _ => peek slot

/-- A slot is touched before it is assigned to. -/
theorem assign (slot : Slot) (x : slot.Held) : Recorded needs (StoreM.assign slot x) [slot] :=
  (touch slot).bind_keep fun _ => write (List.mem_append_left _ (List.mem_singleton_self _)) x

theorem refuse (refusal : Refusal) :
    Recorded needs (StoreM.refuse refusal : StoreM α) [] :=
  throw _

theorem ofExcept (check : Except Refusal α) : Recorded needs (StoreM.ofExcept check) [] := by
  cases check with
  | ok value => exact pure value
  | error refusal => exact refuse refusal

end Recorded

end EditionMarket
