import EditionMarket.Proofs.Transaction.Script

/-!
# Operations on objects and programs on values

The programs of a store work on what its slots hold, and the operations of a script on the objects that stand
in them. As long as no object stands in two slots, an operation does on a memory what the program of the same
name does on the store that is laid out in it, and so does a transaction around it.

Main definitions: `Operation.Plays` and `Tracks`. Main statements: `Operation.plays_fetch`,
`Operation.plays_assign`, `Operation.plays_roster` and `Operation.plays_remove`, one for each way to work on a
store; `Operation.lays_change`, a change in place is a write; `Operation.lays_insert`; and
`Tracks.transaction`.
-/

namespace EditionMarket

variable {α β κ ι : Type}

/-! ## Rosters as objects -/

namespace Family

/-- The rosters of a family are objects, and where no object stands there is no roster. -/
structure OfObjects (family : Family κ ι) : Prop where
  isSome_object? : ∀ key roster, ((family.slot key).object? (family.held key (some roster))).isSome
  roster?_held_none : ∀ key, family.roster? key ((family.slot key).held none) = none

theorem ofObjects_creatorsOf : creatorsOf.OfObjects := ⟨fun _ _ => rfl, fun _ => rfl⟩

theorem ofObjects_editionsOf : editionsOf.OfObjects := ⟨fun _ _ => rfl, fun _ => rfl⟩

theorem ofObjects_tokensOf : tokensOf.OfObjects := ⟨fun _ _ => rfl, fun _ => rfl⟩

end Family

namespace Memory.Lays

variable {memory : Memory} {store : Store} {slot : Slot}

/-- To change the object in a slot is to write to the slot. -/
theorem alter (h : memory.Lays store) {held : slot.Held}
    (hfound : ((memory.place slot).bind memory.object?).isSome) (hheld : (slot.object? held).isSome) :
    (memory.alter slot held).Lays (store.write slot held) := by
  obtain ⟨found, hfound⟩ := Option.isSome_iff_exists.1 hfound
  obtain ⟨ref, hplace, href⟩ := Option.bind_eq_some_iff.1 hfound
  obtain ⟨object, hobject⟩ := Option.isSome_iff_exists.1 hheld
  have halter : memory.alter slot held = memory.rewrite ref fun _ => object := by
    unfold Memory.alter
    rw [hplace, hobject]
  have hwritten : slot.held ((memory.object? ref).map fun _ => object) = held := by
    rw [href, Option.map_some, ← hobject, Slot.held_object?]
  rw [halter, ← hwritten]
  exact h.rewrite hplace _

/-- To let an object stand in a slot that stands nowhere else is to write it to the slot. -/
theorem stand (h : memory.Lays store) {ref : Ref} (hmade : ∀ n, ref = .made n → n < memory.count)
    (halone : ∀ other, memory.place other = some ref → other = slot) :
    (memory.stand slot (some ref)).Lays (store.write slot (slot.held (memory.object? ref))) where
  limits_eq := h.limits_eq
  read_eq other := by
    by_cases heq : other = slot
    · subst heq
      refine Eq.trans ?_ (Contents.read_write_self _ _ _).symm
      show other.held ((if other = other then some ref else _).bind memory.object?) = _
      rw [if_pos rfl, Option.bind_some]
    · refine Eq.trans ?_ (Contents.read_write_of_ne _ _ (Ne.symm heq)).symm
      rw [← h.read_eq]
      show other.held ((if other = slot then some ref else memory.place other).bind memory.object?) = _
      rw [if_neg heq]
      rfl
  journal_eq := h.journal_eq
  sound other n hplace := by
    by_cases heq : other = slot
    · exact hmade n (Option.some.inj ((if_pos heq).symm.trans hplace))
    · exact h.sound other n ((if_neg heq).symm.trans hplace)
  alone first found second hfirst hsecond := by
    by_cases hf : first = slot <;> by_cases hs : second = slot
    · rw [hf, hs]
    · have href : some ref = some found := (if_pos hf).symm.trans hfirst
      cases href
      exact absurd (halone second ((if_neg hs).symm.trans hsecond)) hs
    · have href : some ref = some found := (if_pos hs).symm.trans hsecond
      cases href
      exact absurd (halone first ((if_neg hf).symm.trans hfirst)) hf
    · exact h.alone first found second ((if_neg hf).symm.trans hfirst) ((if_neg hs).symm.trans hsecond)

end Memory.Lays

/-! ## Operations -/

namespace Operation

/-- An operation does on a memory what a program does on the store that is laid out in it, and the program
never fails. `same` says when their answers come to the same. -/
def Plays (operation : Operation β) (program : StoreM α) (same : Memory → β → α → Prop) : Prop :=
  ∀ (session : Session) (store : Store), session.memory.Lays store →
    ∃ value final, program store = .ok value final ∧ (operation.run session).2.memory.Lays final ∧
      same (operation.run session).2.memory (operation.run session).1 value

/-- What is handed out is the object that stands in the slot, and it is what the slot holds. -/
def HandsOut (slot : Slot) (held : slot.Held) (memory : Memory) (answer : Option Ref) : Prop :=
  answer = memory.place slot ∧ slot.held (answer.bind memory.object?) = held

theorem plays_look (slot : Slot) : (look slot).Plays (StoreM.peek slot) fun _ answer held => answer = held :=
  fun _ store h => ⟨_, store, rfl, h, h.read_eq slot⟩

theorem plays_fetch (slot : Slot) :
    (fetch slot).Plays (StoreM.fetch slot) fun memory answer held => HandsOut slot held memory answer :=
  fun _ store h => ⟨_, store.touch slot, rfl, h.touch slot, rfl, h.read_eq slot⟩

theorem plays_assign (slot : Slot) (held : slot.Held) :
    (assign slot held).Plays (StoreM.assign slot held) fun _ _ _ => True :=
  fun _ store h => ⟨(), (store.touch slot).write slot held, rfl, (h.touch slot).assign slot held, trivial⟩

theorem plays_roster (family : Family κ ι) (key : κ) :
    (roster family key).Plays (family.fetch key) fun memory answer found =>
      HandsOut (family.slot key) (family.held key (some found)) memory answer := by
  intro session store h
  have ht := h.touch (family.slot key)
  have hread : (session.memory.touch (family.slot key)).read (family.slot key) =
    store.contents.read (family.slot key) := h.read_eq _
  have hfetch : StoreM.fetch (family.slot key) store =
    .ok (store.contents.read (family.slot key)) (store.touch (family.slot key)) := rfl
  unfold Family.fetch Operation.run
  dsimp only
  rw [Program.bind_of_ok hfetch, hread]
  cases hr : family.roster? key (store.contents.read (family.slot key)) with
  | some found =>
    rw [if_pos Option.isSome_some]
    refine ⟨found, _, rfl, ht, rfl, ?_⟩
    rw [← hr, family.held_roster?]
    exact hread
  | none =>
    rw [if_neg (by exact Bool.false_ne_true)]
    rw [ht.limits_eq]
    exact ⟨_, _, rfl, ht.assign _ _, rfl, Memory.read_assign_self _ _ _⟩

theorem plays_remove [DecidableEq ι] {family : Family κ ι} (hf : family.OfObjects) (key : κ) (item : ι) :
    (remove family key item).Plays (family.remove key item) fun _ answer removed => answer = removed := by
  intro session store h
  have hread := h.read_eq (family.slot key)
  have hpeek : family.peek key store =
    .ok (family.roster? key (store.contents.read (family.slot key))) store := rfl
  unfold Family.remove Operation.run
  dsimp only
  rw [Program.bind_of_ok hpeek, hread]
  cases hr : family.roster? key (store.contents.read (family.slot key)) with
  | none => exact ⟨false, store, rfl, h, rfl⟩
  | some longer =>
    dsimp only
    by_cases hm : item ∈ longer.items
    · rw [if_pos hm, if_pos hm]
      refine ⟨true, _, rfl, ?_, rfl⟩
      -- There is a roster, so an object stands in the slot.
      have hfound : ((session.memory.place (family.slot key)).bind session.memory.object?).isSome := by
        rw [Option.isSome_iff_ne_none]
        intro hnone
        unfold Memory.read at hread
        rw [← hread, hnone, hf.roster?_held_none] at hr
        cases hr
      have haltered := (h.touch (family.slot key)).alter hfound
        (hf.isSome_object? key (longer.remove item))
      by_cases hempty : (longer.remove item).items = []
      · rw [if_pos hempty, if_pos hempty]
        -- The roster has been shortened in place before it is dropped, and the write is written over.
        have hdropped := haltered.assign (family.slot key) (family.held key none)
        unfold Store.write at hdropped
        rw [Contents.write_write] at hdropped
        exact hdropped
      · rw [if_neg hempty, if_neg hempty]
        exact haltered
    · rw [if_neg hm, if_neg hm]
      exact ⟨false, store, rfl, h, rfl⟩

/-- To change an object that is at hand, and that stands in a slot, is to write to the slot. -/
theorem lays_change {session : Session} {store : Store} {slot : Slot} {ref : Ref}
    (h : session.memory.Lays store) (hplace : session.memory.place slot = some ref)
    (hr : ref ∈ session.handed) (how : Change) :
    ((change ref how).run session).2.memory.Lays
      (store.write slot (slot.held ((session.memory.object? ref).map how.apply))) := by
  unfold Operation.run
  dsimp only
  rw [if_pos hr]
  exact h.rewrite hplace how.apply

/-- To put in a record that is at hand, and that stands in no other slot than the one of its id, is to assign
it to the slot. -/
theorem lays_insert {session : Session} {store : Store} {slot : Slot} {ref : Ref} {object : Object}
    (h : session.memory.Lays store) (hr : ref ∈ session.handed)
    (hobject : session.memory.object? ref = some object) (hhome : object.home? = some slot)
    (hmade : ∀ n, ref = .made n → n < session.memory.count)
    (halone : ∀ other, session.memory.place other = some ref → other = slot) :
    ∃ final, StoreM.assign slot (slot.held (some object)) store = .ok () final ∧
      ((insert ref).run session).2.memory.Lays final := by
  refine ⟨_, rfl, ?_⟩
  have hstand := (h.touch slot).stand hmade halone
  rw [show (session.memory.touch slot).object? ref = some object from hobject] at hstand
  unfold Operation.run
  dsimp only
  rw [hobject, Option.bind_some, hhome]
  dsimp only
  rw [if_pos hr]
  exact hstand

end Operation

/-! ## Transactions -/

/-- A program does on a memory what another one does on the store that is laid out in it. -/
def Tracks (program : SessionM Fault α) (original : StoreM α) : Prop :=
  ∀ (session : Session) (store : Store), session.memory.Lays store →
    match original store with
    | .ok value final => ∃ after, program session = .ok value after ∧ after.memory.Lays final
    | .error fault final => ∃ after, program session = .error fault after ∧ after.memory.Lays final

/-- **A transaction on a memory is a transaction on the store that is laid out in it.** -/
theorem Tracks.transaction {program : SessionM Fault α} {original : StoreM α} (h : Tracks program original) :
    Tracks (transaction program) (transaction original) := by
  intro session store hs
  have hsame : Transactional.isOpen session = Transactional.isOpen store :=
    congrArg Option.isSome hs.journal_eq
  cases hstore : Transactional.isOpen store with
  | true =>
    rw [transaction_of_isOpen hstore, transaction_of_isOpen (hsame.trans hstore)]
    exact h session store hs
  | false =>
    have hopen := hsame.trans hstore
    have hrun := h (session.withMemory session.memory.begin) store.begin hs.begin
    cases hr : original store.begin with
    | ok value final =>
      rw [hr] at hrun
      obtain ⟨after, heq, hlays⟩ := hrun
      rw [transaction_of_ok hstore hr, transaction_of_ok hopen heq]
      exact ⟨_, rfl, hlays.commit⟩
    | error fault final =>
      rw [hr] at hrun
      obtain ⟨after, heq, hlays⟩ := hrun
      rw [transaction_of_error hstore hr, transaction_of_error hopen heq]
      exact ⟨_, rfl, hlays.rollBack⟩

end EditionMarket
