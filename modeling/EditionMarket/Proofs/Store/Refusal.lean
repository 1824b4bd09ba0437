import EditionMarket.Holdings
import EditionMarket.Issuance
import EditionMarket.Proofs.Program

/-!
# Refusals come before the first change

A program that is refused half-way leaves what it has done so far; to undo it is the business of
transactions. But the programs on creators, editions and tokens have done nothing when they are refused:
they look first, then make room on a roster, which may still be refused, and only then write, which may
not.

Main statements: `Registry.refusesFirst_register`, `Registry.refusesFirst_release`,
`Issuance.refusesFirst_mint`, `Issuance.refusesFirst_issue`, `Holdings.refusesFirst_transfer` and
`Holdings.refusesFirst_burn`. They hold in every store, whether or not a transaction is open.
-/

namespace EditionMarket

variable {α β κ ι : Type}

/-! ## Three kinds of programs -/

/-- However it ends, the program has changed nothing. -/
def LooksOnly (program : StoreM α) : Prop :=
  ∀ store : Store, match program store with
    | .ok _ final => final.contents = store.contents
    | .error _ final => final.contents = store.contents

/-- If the program is refused, it has changed nothing. -/
def RefusesFirst (program : StoreM α) : Prop :=
  ∀ (store final : Store) (refusal : Refusal),
    program store = .error (.refused refusal) final → final.contents = store.contents

/-- The program is not refused. -/
def NeverRefuses (program : StoreM α) : Prop :=
  ∀ (store final : Store) (refusal : Refusal), program store ≠ .error (.refused refusal) final

namespace LooksOnly

theorem contents_of_ok {program : StoreM α} (h : LooksOnly program) {store final : Store} {value : α}
    (hr : program store = .ok value final) : final.contents = store.contents := by
  have hs := h store
  rw [hr] at hs
  exact hs

theorem contents_of_error {program : StoreM α} (h : LooksOnly program) {store final : Store}
    {fault : Fault} (hr : program store = .error fault final) : final.contents = store.contents := by
  have hs := h store
  rw [hr] at hs
  exact hs

theorem refusesFirst {program : StoreM α} (h : LooksOnly program) : RefusesFirst program :=
  fun _ _ _ hr => h.contents_of_error hr

theorem pure (value : α) : LooksOnly (Pure.pure value) := fun _ => rfl

theorem throw (fault : Fault) : LooksOnly (MonadExcept.throw fault : StoreM α) := fun _ => rfl

theorem refuse (refusal : Refusal) : LooksOnly (StoreM.refuse refusal : StoreM α) := throw _

theorem get : LooksOnly (MonadState.get : StoreM Store) := fun _ => rfl

theorem peek (slot : Slot) : LooksOnly (StoreM.peek slot) := fun _ => rfl

/-- To touch a slot is not to change it. -/
theorem fetch (slot : Slot) : LooksOnly (StoreM.fetch slot) := fun _ => rfl

theorem ofExcept (check : Except Refusal α) : LooksOnly (StoreM.ofExcept check) := by
  cases check with
  | ok value => exact pure value
  | error refusal => exact refuse refusal

theorem bind {first : StoreM α} {second : α → StoreM β} (hfirst : LooksOnly first)
    (hsecond : ∀ value, LooksOnly (second value)) : LooksOnly (first >>= second) := by
  intro store
  cases hr : first store with
  | error fault final =>
    rw [Program.bind_of_error hr]
    exact hfirst.contents_of_error hr
  | ok value middle =>
    have hmiddle := hfirst.contents_of_ok hr
    rw [Program.bind_of_ok hr]
    cases hr₂ : second value middle with
    | ok result final => exact ((hsecond value).contents_of_ok hr₂).trans hmiddle
    | error fault final => exact ((hsecond value).contents_of_error hr₂).trans hmiddle

theorem ite {c : Prop} [Decidable c] {yes no : StoreM α} (hyes : LooksOnly yes)
    (hno : LooksOnly no) : LooksOnly (if c then yes else no) := by
  split
  · exact hyes
  · exact hno

theorem discard {program : StoreM α} (h : LooksOnly program) :
    LooksOnly (Functor.discard program) := by
  rw [Program.discard_eq_bind]
  exact h.bind fun _ => pure ()

/-- After a look, what follows is responsible for itself. -/
theorem bind_refusesFirst {first : StoreM α} {second : α → StoreM β} (hfirst : LooksOnly first)
    (hsecond : ∀ value, RefusesFirst (second value)) : RefusesFirst (first >>= second) := by
  intro store final refusal hr
  rcases Program.bind_eq_error_iff.1 hr with hr | ⟨value, middle, hok, hr⟩
  · exact hfirst.contents_of_error hr
  · exact (hsecond value _ _ _ hr).trans (hfirst.contents_of_ok hok)

end LooksOnly

namespace NeverRefuses

theorem pure (value : α) : NeverRefuses (Pure.pure value) := fun _ _ _ => nofun

theorem modify (f : Store → Store) : NeverRefuses (modify f) := fun _ _ _ => nofun

/-- A breach is no refusal. -/
theorem breach (cause : Breach) : NeverRefuses (throw (.breach cause) : StoreM α) :=
  fun _ _ _ => nofun

theorem assign (slot : Slot) (held : slot.Held) : NeverRefuses (StoreM.assign slot held) :=
  fun _ _ _ => nofun

theorem peek (slot : Slot) : NeverRefuses (StoreM.peek slot) := fun _ _ _ => nofun

theorem fetch (slot : Slot) : NeverRefuses (StoreM.fetch slot) := fun _ _ _ => nofun

theorem bind {first : StoreM α} {second : α → StoreM β} (hfirst : NeverRefuses first)
    (hsecond : ∀ value, NeverRefuses (second value)) : NeverRefuses (first >>= second) := by
  intro store final refusal hr
  rcases Program.bind_eq_error_iff.1 hr with hr | ⟨value, middle, -, hr⟩
  · exact hfirst _ _ _ hr
  · exact hsecond value _ _ _ hr

theorem ite {c : Prop} [Decidable c] {yes no : StoreM α} (hyes : NeverRefuses yes)
    (hno : NeverRefuses no) : NeverRefuses (if c then yes else no) := by
  split
  · exact hyes
  · exact hno

theorem discard {program : StoreM α} (h : NeverRefuses program) :
    NeverRefuses (Functor.discard program) := by
  rw [Program.discard_eq_bind]
  exact h.bind fun _ => pure ()

theorem refusesFirst {program : StoreM α} (h : NeverRefuses program) : RefusesFirst program :=
  fun _ _ _ hr => absurd hr (h _ _ _)

end NeverRefuses

namespace RefusesFirst

/-- Changes may follow if nothing is refused any more. -/
theorem bind {first : StoreM α} {second : α → StoreM β} (hfirst : RefusesFirst first)
    (hsecond : ∀ value, NeverRefuses (second value)) : RefusesFirst (first >>= second) := by
  intro store final refusal hr
  rcases Program.bind_eq_error_iff.1 hr with hr | ⟨value, middle, -, hr⟩
  · exact hfirst _ _ _ hr
  · exact absurd hr (hsecond value _ _ _)

theorem ite {c : Prop} [Decidable c] {yes no : StoreM α} (hyes : RefusesFirst yes)
    (hno : RefusesFirst no) : RefusesFirst (if c then yes else no) := by
  split
  · exact hyes
  · exact hno

/-- What stands after a refusal is not carried out. -/
theorem refuse_bind (refusal : Refusal) (next : α → StoreM β) :
    RefusesFirst (StoreM.refuse refusal >>= next) := by
  intro store final refusal' hr
  cases hr
  rfl

end RefusesFirst

/-! ## Rosters -/

namespace Family

variable (family : Family κ ι) (key : κ)

theorem looksOnly_peek : LooksOnly (family.peek key) :=
  (LooksOnly.peek _).bind fun _ => LooksOnly.pure _

theorem looksOnly_size : LooksOnly (family.size key) :=
  (family.looksOnly_peek key).bind fun _ => LooksOnly.pure _

/-- The roster for work is one that was there, or a new one without items. -/
theorem fetch_cases (store : Store) :
    ∃ roster final, family.fetch key store = .ok roster final ∧
      (final.contents = store.contents ∨ roster = .empty (family.capacity store.limits)) := by
  have hfetch : StoreM.fetch (family.slot key) store =
      .ok (store.contents.read (family.slot key)) (store.touch (family.slot key)) := rfl
  unfold fetch
  rw [Program.bind_of_ok hfetch]
  cases family.roster? key (store.contents.read (family.slot key)) with
  | some roster => exact ⟨roster, _, rfl, .inl rfl⟩
  | none => exact ⟨_, _, rfl, .inr rfl⟩

/-- A roster that is made for an item has room for it, so that a push which is refused has made none. -/
theorem refusesFirst_push (hpos : ∀ limits, 0 < family.capacity limits) (item : ι)
    (full : Nat → Fault) : RefusesFirst (family.push key item full) := by
  intro store final refusal hr
  obtain ⟨roster, middle, hfetch, hcases⟩ := family.fetch_cases key store
  unfold push at hr
  rw [Program.bind_of_ok hfetch] at hr
  cases hp : roster.push? item with
  | some longer =>
    rw [hp] at hr
    cases hr
  | none =>
    rw [hp] at hr
    injection hr with _ hfinal
    subst hfinal
    rcases hcases with hsame | rfl
    · exact hsame
    -- An empty roster is not full.
    · have hfull : family.capacity store.limits ≤ 0 := by
        simpa [Roster.isFull, Roster.empty] using Roster.push?_eq_none_iff.1 hp
      exact absurd (hpos store.limits) (Nat.not_lt.2 hfull)

variable [DecidableEq ι]

theorem neverRefuses_remove (item : ι) : NeverRefuses (family.remove key item) := by
  refine NeverRefuses.bind ?_ fun found => ?_
  · exact (NeverRefuses.peek _).bind fun _ => NeverRefuses.pure _
  · split
    · exact NeverRefuses.pure _
    · refine NeverRefuses.ite ?_ (NeverRefuses.pure _)
      refine (NeverRefuses.modify _).bind fun _ => ?_
      exact (NeverRefuses.modify _).bind fun _ => NeverRefuses.pure _

end Family

/-! ## Numbers -/

namespace Numbering

theorem looksOnly_nextEdition : LooksOnly nextEdition :=
  (LooksOnly.peek _).bind fun _ => LooksOnly.get.bind fun _ => LooksOnly.ofExcept _

theorem looksOnly_nextToken : LooksOnly nextToken :=
  (LooksOnly.peek _).bind fun _ => LooksOnly.get.bind fun _ => LooksOnly.ofExcept _

theorem neverRefuses_commitEdition (id : ItemId) : NeverRefuses (commitEdition id) := by
  refine (NeverRefuses.peek _).bind fun last => ?_
  exact NeverRefuses.ite (NeverRefuses.assign _ _) (NeverRefuses.breach _)

theorem neverRefuses_commitToken (id : ItemId) : NeverRefuses (commitToken id) := by
  refine (NeverRefuses.peek _).bind fun last => ?_
  exact NeverRefuses.ite (NeverRefuses.assign _ _) (NeverRefuses.breach _)

end Numbering

/-! ## Creators -/

namespace Registry

theorem looksOnly_get? (id : CreatorId) : LooksOnly (get? id) := LooksOnly.fetch _

theorem looksOnly_ownerOf (id : CreatorId) : LooksOnly (ownerOf id) :=
  (looksOnly_get? id).bind fun _ => LooksOnly.pure _

theorem looksOnly_ensureOwner (account : AccountId) (id : CreatorId) :
    LooksOnly (ensureOwner account id) := by
  have hcheck : LooksOnly (do
      if (← ownerOf id) ≠ account then StoreM.refuse (.notCreatorOwner account id)) :=
    (looksOnly_ownerOf id).bind fun _ => LooksOnly.ite (LooksOnly.refuse _) (LooksOnly.pure _)
  exact LooksOnly.ite ((LooksOnly.refuse _).bind fun _ => hcheck) hcheck

theorem neverRefuses_update (id : CreatorId) (change : Creator → Creator) :
    NeverRefuses (update id change) := by
  refine (NeverRefuses.fetch _).bind fun found => ?_
  split
  · exact NeverRefuses.pure _
  · exact (NeverRefuses.modify _).bind fun _ => NeverRefuses.pure _

theorem refusesFirst_register (id : Value) (owner : AccountId) :
    RefusesFirst (register id owner) := by
  refine (LooksOnly.ofExcept _).bind_refusesFirst fun id => ?_
  refine (looksOnly_get? id).bind_refusesFirst fun found => ?_
  refine RefusesFirst.ite (RefusesFirst.refuse_bind _ _) ?_
  -- Whether there is room for the creator is the last question.
  refine (Family.creatorsOf.refusesFirst_push _ Limits.creatorsPerAccount_pos _ _).bind fun _ => ?_
  exact (NeverRefuses.assign _ _).bind fun _ => NeverRefuses.pure _

theorem refusesFirst_release (id : CreatorId) (owner : AccountId) :
    RefusesFirst (release id owner) := by
  refine (looksOnly_ensureOwner owner id).bind_refusesFirst fun _ => ?_
  refine (Family.editionsOf.looksOnly_size id).bind_refusesFirst fun count => ?_
  -- Whichever way the creator goes, it leaves its owner's roster last.
  have hrest : NeverRefuses (do
      discard (Family.creatorsOf.remove owner id)
      pure (decide (count = 0)) : StoreM Bool) :=
    (Family.creatorsOf.neverRefuses_remove owner id).discard.bind fun _ => NeverRefuses.pure _
  refine NeverRefuses.refusesFirst ?_
  refine NeverRefuses.ite ((NeverRefuses.assign _ _).bind fun _ => hrest) ?_
  refine (neverRefuses_update id _).bind fun found => ?_
  exact NeverRefuses.ite ((NeverRefuses.breach _).bind fun _ => hrest) hrest

end Registry

/-! ## Editions -/

namespace Issuance

theorem looksOnly_require (id : ItemId) : LooksOnly (require id) := by
  refine (LooksOnly.fetch _).bind fun found => ?_
  split
  · exact LooksOnly.pure _
  · exact LooksOnly.refuse _

theorem looksOnly_ownerOf (id : ItemId) : LooksOnly (ownerOf id) := by
  refine (LooksOnly.fetch _).bind fun found => ?_
  split
  · exact LooksOnly.pure _
  · exact Registry.looksOnly_ownerOf _

theorem looksOnly_ensureCreator (creator : CreatorId) (id : ItemId) :
    LooksOnly (ensureCreator creator id) := by
  refine (LooksOnly.fetch _).bind fun found => ?_
  split
  · exact LooksOnly.refuse _
  · exact LooksOnly.ite (LooksOnly.refuse _) (LooksOnly.pure _)

theorem refusesFirst_mint (creator : CreatorId) (price : Int) (metadata : Metadata) :
    RefusesFirst (mint creator price metadata) := by
  refine RefusesFirst.ite (RefusesFirst.refuse_bind _ _) ?_
  -- To look for the next number is not to use it up: that comes at the very end.
  refine Numbering.looksOnly_nextEdition.bind_refusesFirst fun id => ?_
  refine (Family.editionsOf.refusesFirst_push _ Limits.editionsPerCreator_pos _ _).bind fun _ => ?_
  refine (NeverRefuses.assign _ _).bind fun _ => ?_
  exact (Numbering.neverRefuses_commitEdition id).bind fun _ => NeverRefuses.pure _

theorem refusesFirst_issue (edition : ItemId) (receiver : AccountId) :
    RefusesFirst (issue edition receiver) := by
  refine (looksOnly_require edition).bind_refusesFirst fun source => ?_
  refine RefusesFirst.ite (RefusesFirst.refuse_bind _ _) ?_
  refine Numbering.looksOnly_nextToken.bind_refusesFirst fun id => ?_
  refine (Family.tokensOf.refusesFirst_push _ Limits.tokensPerAccount_pos _ _).bind fun _ => ?_
  refine (NeverRefuses.assign _ _).bind fun _ => ?_
  refine (NeverRefuses.modify _).bind fun _ => ?_
  exact (Numbering.neverRefuses_commitToken id).bind fun _ => NeverRefuses.pure _

theorem refusesFirst_setPrice (id : ItemId) (price : Int) : RefusesFirst (setPrice id price) :=
  (looksOnly_require id).bind_refusesFirst fun _ => (NeverRefuses.modify _).refusesFirst

end Issuance

/-! ## Tokens -/

namespace Holdings

theorem looksOnly_require (id : ItemId) : LooksOnly (require id) := by
  refine (LooksOnly.fetch _).bind fun found => ?_
  split
  · exact LooksOnly.pure _
  · exact LooksOnly.refuse _

theorem looksOnly_ensureOwner (account : AccountId) (id : ItemId) :
    LooksOnly (ensureOwner account id) := by
  refine ((LooksOnly.fetch _).bind fun _ => LooksOnly.pure _).bind fun owner => ?_
  exact LooksOnly.ite (LooksOnly.refuse _) (LooksOnly.pure _)

theorem refusesFirst_transfer (id : ItemId) (owner receiver : AccountId) :
    RefusesFirst (transfer id owner receiver) := by
  refine (looksOnly_require id).bind_refusesFirst fun token => ?_
  refine (Family.tokensOf.refusesFirst_push _ Limits.tokensPerAccount_pos _ _).bind fun _ => ?_
  exact (Family.tokensOf.neverRefuses_remove owner id).discard.bind fun _ => NeverRefuses.modify _

theorem refusesFirst_setPrice (id : ItemId) (price : Option Int) :
    RefusesFirst (setPrice id price) :=
  (looksOnly_require id).bind_refusesFirst fun _ => (NeverRefuses.modify _).refusesFirst

theorem refusesFirst_burn (id : ItemId) : RefusesFirst (burn id) := by
  refine (looksOnly_require id).bind_refusesFirst fun token => ?_
  -- A token without its edition is a breach, which is no refusal.
  refine (LooksOnly.fetch _).bind_refusesFirst fun found => NeverRefuses.refusesFirst ?_
  split
  · exact NeverRefuses.breach _
  · refine (Family.tokensOf.neverRefuses_remove _ id).discard.bind fun _ => ?_
    exact (NeverRefuses.assign _ _).bind fun _ => NeverRefuses.modify _

end Holdings

end EditionMarket
