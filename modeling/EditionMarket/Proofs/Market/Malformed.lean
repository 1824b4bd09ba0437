import EditionMarket.Proofs.Argument
import EditionMarket.Proofs.Market.Rule
import EditionMarket.Proofs.Store.Refusal

/-!
# Malformed calls

Every action checks all of its arguments before it does anything else, and nothing that it checks later
is called an invalid argument. So a call is refused as invalid exactly if an argument is malformed, whatever
the store looks like and whether or not a transaction is open; and a call that is refused so has changed
nothing.

What the caller is told of it is a message, which quotes the argument. Where that is an integer of too many
digits, the message cannot be written, and the caller is told nothing.

Main statements: `screens_perform`, which sorts the refusals of every action into invalid arguments and
other reasons; `invalid_argument_iff_malformed_unless_unwritable`; and `long_price_is_not_told`, a malformed
call that returns no value.
-/

namespace EditionMarket

/-! ## What a program may be refused for -/

section

variable {τ α β : Type} {codes : List Code}

/-- The program is refused for one of these reasons, or not at all. -/
def RefusesOnly (codes : List Code) (program : EStateM Fault τ α) : Prop :=
  ∀ state final refusal, program state = .error (.refused refusal) final → refusal.code ∈ codes

namespace RefusesOnly

theorem pure (value : α) : RefusesOnly codes (Pure.pure value : EStateM Fault τ α) :=
  fun _ _ _ => nofun

theorem breach (cause : Breach) : RefusesOnly codes (throw (.breach cause) : EStateM Fault τ α) :=
  fun _ _ _ => nofun

theorem throw_refused {refusal : Refusal} (h : refusal.code ∈ codes) :
    RefusesOnly codes (throw (.refused refusal) : EStateM Fault τ α) := by
  intro _ _ _ hr
  cases hr
  exact h

theorem bind {first : EStateM Fault τ α} {second : α → EStateM Fault τ β}
    (hfirst : RefusesOnly codes first) (hsecond : ∀ value, RefusesOnly codes (second value)) :
    RefusesOnly codes (first >>= second) := by
  intro state final refusal hr
  rcases Program.bind_eq_error_iff.1 hr with hr | ⟨value, middle, -, hr⟩
  · exact hfirst _ _ _ hr
  · exact hsecond value _ _ _ hr

theorem ite {c : Prop} [Decidable c] {yes no : EStateM Fault τ α} (hyes : RefusesOnly codes yes)
    (hno : RefusesOnly codes no) : RefusesOnly codes (if c then yes else no) := by
  split
  · exact hyes
  · exact hno

theorem discard {program : EStateM Fault τ α} (h : RefusesOnly codes program) :
    RefusesOnly codes (Functor.discard program) := by
  rw [Program.discard_eq_bind]
  exact h.bind fun _ => pure ()

end RefusesOnly

theorem NeverRefuses.refusesOnly {program : StoreM α} (h : NeverRefuses program) :
    RefusesOnly codes program :=
  fun state final refusal hr => absurd hr (h state final refusal)

theorem StoreM.refusesOnly_refuse {refusal : Refusal} (h : refusal.code ∈ codes) :
    RefusesOnly codes (refuse refusal : StoreM α) :=
  .throw_refused h

/-- What stands after a refusal is not carried out. -/
theorem StoreM.refusesOnly_refuse_bind {refusal : Refusal} (h : refusal.code ∈ codes)
    (next : α → StoreM β) : RefusesOnly codes (refuse refusal >>= next) := by
  intro _ _ _ hr
  cases hr
  exact h

end

section Store

variable {κ ι : Type} {codes : List Code}

theorem Family.refusesOnly_push (family : Family κ ι) (key : κ) (item : ι) {full : Nat → Refusal}
    (h : ∀ limit, (full limit).code ∈ codes) :
    RefusesOnly codes (family.push key item fun limit => .refused (full limit)) := by
  have hfetch : NeverRefuses (family.fetch key) := by
    refine (NeverRefuses.fetch _).bind fun held => ?_
    split
    · exact NeverRefuses.pure _
    · exact NeverRefuses.bind (fun _ _ _ => nofun) fun _ =>
        (NeverRefuses.modify _).bind fun _ => NeverRefuses.pure _
  refine hfetch.refusesOnly.bind fun roster => ?_
  split
  · exact (NeverRefuses.modify _).refusesOnly
  · exact .throw_refused (h _)

namespace Numbering

theorem refusesOnly_next {last ceiling : Int} {code : Code} (h : code ∈ codes) :
    RefusesOnly codes (StoreM.ofExcept (Counter.next code last ceiling)) := by
  unfold Counter.next
  split
  · exact StoreM.refusesOnly_refuse h
  · exact .pure _

theorem refusesOnly_nextEdition (h : .editionsExhausted ∈ codes) : RefusesOnly codes nextEdition := by
  refine (NeverRefuses.peek _).refusesOnly.bind fun last => ?_
  exact RefusesOnly.bind (fun _ _ _ => nofun) fun _ => refusesOnly_next h

theorem refusesOnly_nextToken (h : .tokensExhausted ∈ codes) : RefusesOnly codes nextToken := by
  refine (NeverRefuses.peek _).refusesOnly.bind fun last => ?_
  exact RefusesOnly.bind (fun _ _ _ => nofun) fun _ => refusesOnly_next h

end Numbering

namespace Registry

theorem neverRefuses_ownerOf (id : CreatorId) : NeverRefuses (ownerOf id) :=
  (NeverRefuses.fetch _).bind fun _ => NeverRefuses.pure _

theorem refusesOnly_ensureOwner (account : AccountId) (id : CreatorId) (h : .notOwner ∈ codes) :
    RefusesOnly codes (ensureOwner account id) := by
  refine RefusesOnly.ite (StoreM.refusesOnly_refuse_bind h _) ?_
  refine (neverRefuses_ownerOf id).refusesOnly.bind fun owner => ?_
  exact .ite (StoreM.refusesOnly_refuse h) (.pure _)

theorem refusesOnly_release (id : CreatorId) (owner : AccountId) (h : .notOwner ∈ codes) :
    RefusesOnly codes (release id owner) := by
  refine (refusesOnly_ensureOwner owner id h).bind fun _ => ?_
  have hsize : NeverRefuses (Family.editionsOf.size id) :=
    ((NeverRefuses.peek _).bind fun _ => NeverRefuses.pure _).bind fun _ => NeverRefuses.pure _
  -- Once the owner is known to be the owner, the rest may breach but does not refuse.
  refine hsize.refusesOnly.bind fun count => NeverRefuses.refusesOnly ?_
  have hrest : NeverRefuses (do
      discard (Family.creatorsOf.remove owner id)
      pure (decide (count = 0)) : StoreM Bool) :=
    (Family.creatorsOf.neverRefuses_remove owner id).discard.bind fun _ => NeverRefuses.pure _
  refine NeverRefuses.ite ((NeverRefuses.assign _ _).bind fun _ => hrest) ?_
  refine (neverRefuses_update id _).bind fun found => ?_
  exact NeverRefuses.ite ((NeverRefuses.breach _).bind fun _ => hrest) hrest

end Registry

namespace Issuance

theorem refusesOnly_require (id : ItemId) (h : .notFound ∈ codes) :
    RefusesOnly codes (require id) := by
  refine (NeverRefuses.fetch _).refusesOnly.bind fun found => ?_
  split
  · exact .pure _
  · exact StoreM.refusesOnly_refuse h

theorem neverRefuses_ownerOf (id : ItemId) : NeverRefuses (ownerOf id) := by
  refine (NeverRefuses.fetch _).bind fun found => ?_
  split
  · exact NeverRefuses.pure _
  · exact Registry.neverRefuses_ownerOf _

theorem refusesOnly_ensureCreator (creator : CreatorId) (id : ItemId) (h : .notOwner ∈ codes) :
    RefusesOnly codes (ensureCreator creator id) := by
  refine (NeverRefuses.fetch _).refusesOnly.bind fun found => ?_
  split
  · exact StoreM.refusesOnly_refuse h
  · exact .ite (StoreM.refusesOnly_refuse h) (.pure _)

theorem refusesOnly_mint (creator : CreatorId) (price : Int) (metadata : Metadata)
    (hzero : .zeroSupply ∈ codes) (hcount : .editionsExhausted ∈ codes)
    (hroom : .editionsFull ∈ codes) : RefusesOnly codes (mint creator price metadata) := by
  refine RefusesOnly.ite (StoreM.refusesOnly_refuse_bind hzero _) ?_
  refine (Numbering.refusesOnly_nextEdition hcount).bind fun id => ?_
  refine (Family.editionsOf.refusesOnly_push _ _ fun _ => hroom).bind fun _ => ?_
  refine (NeverRefuses.assign _ _).refusesOnly.bind fun _ => ?_
  exact (Numbering.neverRefuses_commitEdition id).refusesOnly.bind fun _ => .pure _

theorem refusesOnly_issue (edition : ItemId) (receiver : AccountId) (hfound : .notFound ∈ codes)
    (hleft : .soldOut ∈ codes) (hcount : .tokensExhausted ∈ codes) (hroom : .tokensFull ∈ codes) :
    RefusesOnly codes (issue edition receiver) := by
  refine (refusesOnly_require edition hfound).bind fun source => ?_
  refine RefusesOnly.ite (StoreM.refusesOnly_refuse_bind hleft _) ?_
  refine (Numbering.refusesOnly_nextToken hcount).bind fun id => ?_
  refine (Family.tokensOf.refusesOnly_push _ _ fun _ => hroom).bind fun _ => ?_
  refine (NeverRefuses.assign _ _).refusesOnly.bind fun _ => ?_
  refine (NeverRefuses.modify _).refusesOnly.bind fun _ => ?_
  exact (Numbering.neverRefuses_commitToken id).refusesOnly.bind fun _ => .pure _

theorem refusesOnly_setPrice (id : ItemId) (price : Int) (h : .notFound ∈ codes) :
    RefusesOnly codes (setPrice id price) :=
  (refusesOnly_require id h).bind fun _ => (NeverRefuses.modify _).refusesOnly

end Issuance

namespace Holdings

theorem refusesOnly_require (id : ItemId) (h : .notFound ∈ codes) :
    RefusesOnly codes (require id) := by
  refine (NeverRefuses.fetch _).refusesOnly.bind fun found => ?_
  split
  · exact .pure _
  · exact StoreM.refusesOnly_refuse h

theorem refusesOnly_ensureOwner (account : AccountId) (id : ItemId) (h : .notOwner ∈ codes) :
    RefusesOnly codes (ensureOwner account id) := by
  have howner : NeverRefuses (ownerOf id) :=
    (NeverRefuses.fetch _).bind fun _ => NeverRefuses.pure _
  refine howner.refusesOnly.bind fun owner => ?_
  exact .ite (StoreM.refusesOnly_refuse h) (.pure _)

theorem refusesOnly_transfer (id : ItemId) (owner receiver : AccountId) (hfound : .notFound ∈ codes)
    (hroom : .tokensFull ∈ codes) : RefusesOnly codes (transfer id owner receiver) := by
  refine (refusesOnly_require id hfound).bind fun token => ?_
  refine (Family.tokensOf.refusesOnly_push _ _ fun _ => hroom).bind fun _ => ?_
  exact (Family.tokensOf.neverRefuses_remove owner id).discard.refusesOnly.bind fun _ =>
    (NeverRefuses.modify _).refusesOnly

theorem refusesOnly_setPrice (id : ItemId) (price : Option Int) (h : .notFound ∈ codes) :
    RefusesOnly codes (setPrice id price) :=
  (refusesOnly_require id h).bind fun _ => (NeverRefuses.modify _).refusesOnly

theorem refusesOnly_burn (id : ItemId) (h : .notFound ∈ codes) : RefusesOnly codes (burn id) := by
  refine (refusesOnly_require id h).bind fun token => ?_
  refine (NeverRefuses.fetch _).refusesOnly.bind fun found => ?_
  split
  · exact .breach _
  · refine (Family.tokensOf.neverRefuses_remove _ _).discard.refusesOnly.bind fun _ => ?_
    exact (NeverRefuses.assign _ _).refusesOnly.bind fun _ => (NeverRefuses.modify _).refusesOnly

end Holdings

end Store

/-! ## Checks of arguments -/

section

variable {τ α β : Type} {codes : List Code} {P Q : Prop}

/-- The program is a check: it changes nothing, and it passes under the condition only. -/
def Checks (P : Prop) (program : EStateM Fault τ α) : Prop :=
  ∀ state, (P ∧ ∃ value, program state = .ok value state) ∨
    (¬ P ∧ ∃ refusal, program state = .error (.refused refusal) state ∧
      refusal.code = .invalidArgument)

theorem StoreM.checks_ofExcept {check : Except Refusal α} (h : Decides P check) :
    Checks P (ofExcept check) := by
  intro store
  cases check with
  | ok value => exact .inl ⟨h, value, rfl⟩
  | error refusal => exact .inr ⟨h.1, refusal, rfl, h.2⟩

/-- The program refuses what is not well-formed as an invalid argument, before it changes anything, and
refuses everything else for other reasons. -/
structure Screens (P : Prop) (codes : List Code) (program : EStateM Fault τ α) : Prop where
  refusesOnly : P → RefusesOnly codes program
  invalid : ¬ P → ∀ state, ∃ refusal,
    program state = .error (.refused refusal) state ∧ refusal.code = .invalidArgument

namespace Screens

/-- A program that follows a check is screened by it. -/
theorem of_check {first : EStateM Fault τ α} {second : α → EStateM Fault τ β}
    (hfirst : Checks P first) (hsecond : ∀ value, RefusesOnly codes (second value)) :
    Screens P codes (first >>= second) where
  refusesOnly hp := by
    have hpass : RefusesOnly codes first := by
      intro state final refusal hr
      rcases hfirst state with ⟨-, value, hok⟩ | ⟨hn, -⟩
      · cases hok.symm.trans hr
      · exact absurd hp hn
    exact hpass.bind hsecond
  invalid hn state := by
    rcases hfirst state with ⟨hp, -⟩ | ⟨-, refusal, hr, hcode⟩
    · exact absurd hp hn
    · exact ⟨refusal, Program.bind_of_error hr _, hcode⟩

/-- One more check in front. -/
theorem bind {first : EStateM Fault τ α} {second : α → EStateM Fault τ β}
    (hfirst : Checks P first) (hsecond : ∀ value, Screens Q codes (second value)) :
    Screens (P ∧ Q) codes (first >>= second) where
  refusesOnly h := (of_check hfirst fun value => (hsecond value).refusesOnly h.2).refusesOnly h.1
  invalid hn state := by
    rcases hfirst state with ⟨hp, value, hok⟩ | ⟨-, refusal, hr, hcode⟩
    · obtain ⟨refusal, hr, hcode⟩ := (hsecond value).invalid (fun hq => hn ⟨hp, hq⟩) state
      exact ⟨refusal, (Program.bind_of_ok hok _).trans hr, hcode⟩
    · exact ⟨refusal, Program.bind_of_error hr _, hcode⟩

/-- What follows a screened program does not change what it screens. -/
theorem followed {first : EStateM Fault τ α} {second : α → EStateM Fault τ β}
    (hfirst : Screens P codes first) (hsecond : ∀ value, RefusesOnly codes (second value)) :
    Screens P codes (first >>= second) where
  refusesOnly h := (hfirst.refusesOnly h).bind hsecond
  invalid hn state := by
    obtain ⟨refusal, hr, hcode⟩ := hfirst.invalid hn state
    exact ⟨refusal, Program.bind_of_error hr _, hcode⟩

end Screens

end

/-! ## Actions -/

/-- What an action may be refused for once its arguments are well-formed, in the order in which it
asks. -/
def Action.reasons : Action → List Code
  | createAccount _ => [.creatorTaken, .creatorsFull]
  | dropAccount _ => [.notOwner]
  | mint .. => [.notOwner, .zeroSupply, .editionsExhausted, .editionsFull]
  | launchGift .. => [.notFound, .notOwner, .soldOut, .tokensExhausted, .tokensFull]
  | launchBuy .. =>
    [.notFound, .unavailable, .bidTooLow, .insufficientFunds, .soldOut, .tokensExhausted, .tokensFull]
  | buy .. => [.notFound, .notForSale, .toSelf, .bidTooLow, .insufficientFunds, .tokensFull]
  | transfer _ => [.notFound, .notOwner, .tokensFull]
  | list .. => [.notFound, .notOwner, .alreadyListed]
  | unlist _ | setPrice .. => [.notFound, .notOwner, .notListed]
  | setLaunchPrice .. | burn _ => [.notFound, .notOwner]

/-- An invalid argument is never among the other reasons. -/
theorem Action.invalidArgument_notMem_reasons (action : Action) :
    .invalidArgument ∉ action.reasons := by
  cases action <;> simp [reasons]

/-- The caller gets a value that has this code. -/
def Answer.Shows (answer : Answer) (code : Code) : Prop :=
  ∃ fields, answer.reply? = some (.object fields) ∧ Listing.get? fields "code" = some (.string code.text)

/-- A value with a code is what is told of a refusal that can be written. -/
theorem Answer.shows_iff {answer : Answer} {code : Code} :
    answer.Shows code ↔ ∃ refusal, answer = .refused refusal ∧
      (¬ ∃ n ∈ refusal.spelled, Nat.pow 10 Text.mostDigits ≤ n.natAbs) ∧ refusal.code = code := by
  constructor
  · rintro ⟨fields, hreply, hcode⟩
    cases answer with
    | done receipt =>
      cases hreply
      cases receipt <;> cases hcode
    | refused refusal =>
      rw [reply?_refused] at hreply
      split at hreply
      · cases hreply
      case isFalse hshort =>
        cases hreply
        have htext : some (Value.string refusal.code.text) = some (.string code.text) := hcode
        exact ⟨refusal, rfl, hshort, Code.eq_of_text_eq (Value.string.inj (Option.some.inj htext))⟩
  · rintro ⟨refusal, rfl, hshort, rfl⟩
    refine ⟨refusal.report.fields, ?_, rfl⟩
    rw [reply?_refused, if_neg hshort]
    rfl

namespace Market

attribute [local simp] Action.reasons Refusal.code

variable {σ α : Type} {caller : AccountId} {codes : List Code}

/-! ### On the store -/

theorem refusesOnly_ensureListed (token : ItemId) (hfound : .notFound ∈ codes)
    (howner : .notOwner ∈ codes) (hlisted : .notListed ∈ codes) :
    RefusesOnly codes (ensureListed caller token) := by
  refine (Holdings.refusesOnly_require token hfound).bind fun record => ?_
  refine (Holdings.refusesOnly_ensureOwner caller token howner).bind fun _ => ?_
  exact .ite (StoreM.refusesOnly_refuse hlisted) (.pure _)

theorem refusesOnly_ensureMinter (creator : CreatorId) (edition : ItemId) (hfound : .notFound ∈ codes)
    (howner : .notOwner ∈ codes) : RefusesOnly codes (ensureMinter caller creator edition) := by
  refine (Issuance.refusesOnly_require edition hfound).discard.bind fun _ => ?_
  refine (Registry.refusesOnly_ensureOwner caller creator howner).bind fun _ => ?_
  exact Issuance.refusesOnly_ensureCreator creator edition howner

section

variable (field : String) (value : Value)

theorem checks_creatorId : Checks value.IsCreatorId (StoreM.ofExcept (Argument.creatorId value)) :=
  StoreM.checks_ofExcept (Argument.decides_creatorId value)

theorem checks_itemId : Checks value.IsItemId (StoreM.ofExcept (Argument.itemId field value)) :=
  StoreM.checks_ofExcept (Argument.decides_itemId field value)

theorem checks_account : Checks value.IsAccount (StoreM.ofExcept (Argument.account field value)) :=
  StoreM.checks_ofExcept (Argument.decides_account field value)

theorem checks_amount : Checks value.IsAmount (StoreM.ofExcept (Argument.amount field value)) :=
  StoreM.checks_ofExcept (Argument.decides_amount field value)

end

theorem screens_createAccount (creator : Value) :
    Screens (Action.createAccount creator).WellFormed (Action.createAccount creator).reasons
      (createAccount caller creator) := by
  -- The id is checked where it is registered, at the start of that.
  refine Screens.followed ?_ fun _ => .pure _
  refine Screens.of_check (checks_creatorId creator) fun id => ?_
  refine (NeverRefuses.fetch _).refusesOnly.bind fun found => ?_
  refine RefusesOnly.ite (StoreM.refusesOnly_refuse_bind (by simp) _) ?_
  refine (Family.creatorsOf.refusesOnly_push _ _ fun _ => by simp).bind fun _ => ?_
  exact (NeverRefuses.assign _ _).refusesOnly.bind fun _ => .pure _

theorem screens_dropAccount (creator : Value) :
    Screens (Action.dropAccount creator).WellFormed (Action.dropAccount creator).reasons
      (dropAccount caller creator) := by
  refine Screens.of_check (checks_creatorId creator) fun id => ?_
  exact (Registry.refusesOnly_release id caller (by simp)).bind fun _ => .pure _

theorem screens_mint (creator price : Value) (description : Description) :
    Screens (Action.mint creator price description).WellFormed
      (Action.mint creator price description).reasons (mint caller creator price description) := by
  refine Screens.bind (checks_creatorId creator) fun creator => ?_
  refine Screens.bind (checks_amount "price" price) fun price => ?_
  refine Screens.of_check (StoreM.checks_ofExcept description.decides_read) fun metadata => ?_
  refine (Registry.refusesOnly_ensureOwner caller creator (by simp)).bind fun _ => ?_
  exact (Issuance.refusesOnly_mint creator price metadata (by simp) (by simp) (by simp)).bind
    fun _ => .pure _

theorem screens_launchGift (creator edition receiver : Value) :
    Screens (Action.launchGift creator edition receiver).WellFormed
      (Action.launchGift creator edition receiver).reasons
      (launchGift caller creator edition receiver) := by
  refine Screens.bind (checks_creatorId creator) fun creator => ?_
  refine Screens.bind (checks_itemId "launch_token_id" edition) fun edition => ?_
  refine Screens.of_check (checks_account "receiver" receiver) fun receiver => ?_
  refine (refusesOnly_ensureMinter creator edition (by simp) (by simp)).bind fun _ => ?_
  exact (Issuance.refusesOnly_issue edition receiver (by simp) (by simp) (by simp)
    (by simp)).bind fun _ => .pure _

theorem screens_transfer (token : Value) :
    Screens (Action.transfer token).WellFormed (Action.transfer token).reasons
      (transfer caller token) := by
  refine Screens.of_check (checks_itemId "token_id" token) fun token => ?_
  refine (Holdings.refusesOnly_require token (by simp)).discard.bind fun _ => ?_
  refine (Holdings.refusesOnly_ensureOwner caller token (by simp)).bind fun _ => ?_
  exact (Holdings.refusesOnly_transfer token caller caller (by simp) (by simp)).bind
    fun _ => .pure _

theorem screens_list (token price : Value) :
    Screens (Action.list token price).WellFormed (Action.list token price).reasons
      (list caller token price) := by
  refine Screens.bind (checks_itemId "token_id" token) fun token => ?_
  refine Screens.of_check (checks_amount "price" price) fun price => ?_
  refine (Holdings.refusesOnly_require token (by simp)).bind fun record => ?_
  refine (Holdings.refusesOnly_ensureOwner caller token (by simp)).bind fun _ => ?_
  split
  · exact StoreM.refusesOnly_refuse (by simp)
  · exact (Holdings.refusesOnly_setPrice token _ (by simp)).bind fun _ => .pure _

theorem screens_unlist (token : Value) :
    Screens (Action.unlist token).WellFormed (Action.unlist token).reasons
      (unlist caller token) := by
  refine Screens.of_check (checks_itemId "token_id" token) fun token => ?_
  refine (refusesOnly_ensureListed token (by simp) (by simp) (by simp)).bind fun _ => ?_
  exact (Holdings.refusesOnly_setPrice token _ (by simp)).bind fun _ => .pure _

theorem screens_setLaunchPrice (creator edition price : Value) :
    Screens (Action.setLaunchPrice creator edition price).WellFormed
      (Action.setLaunchPrice creator edition price).reasons
      (setLaunchPrice caller creator edition price) := by
  refine Screens.bind (checks_creatorId creator) fun creator => ?_
  refine Screens.bind (checks_itemId "launch_token_id" edition) fun edition => ?_
  refine Screens.of_check (checks_amount "price" price) fun price => ?_
  refine (refusesOnly_ensureMinter creator edition (by simp) (by simp)).bind fun _ => ?_
  exact (Issuance.refusesOnly_setPrice edition price (by simp)).bind fun _ => .pure _

theorem screens_setPrice (token price : Value) :
    Screens (Action.setPrice token price).WellFormed (Action.setPrice token price).reasons
      (setPrice caller token price) := by
  refine Screens.bind (checks_itemId "token_id" token) fun token => ?_
  refine Screens.of_check (checks_amount "price" price) fun price => ?_
  refine (refusesOnly_ensureListed token (by simp) (by simp) (by simp)).bind fun _ => ?_
  exact (Holdings.refusesOnly_setPrice token _ (by simp)).bind fun _ => .pure _

theorem screens_burn (token : Value) :
    Screens (Action.burn token).WellFormed (Action.burn token).reasons
      (burn caller token) := by
  refine Screens.of_check (checks_itemId "token_id" token) fun token => ?_
  refine (Holdings.refusesOnly_require token (by simp)).bind fun record => ?_
  refine (Holdings.refusesOnly_ensureOwner caller token (by simp)).bind fun _ => ?_
  exact (Holdings.refusesOnly_burn token (by simp)).bind fun _ => .pure _

/-! ### On the market -/

/-- What a program on the store is refused for does not depend on the market around it. -/
theorem refusesOnly_liftM {program : StoreM α} (h : RefusesOnly codes program) :
    RefusesOnly codes (liftM program : MarketM σ α) := by
  intro market final refusal hr
  obtain ⟨store, hp, -⟩ := liftM_eq_error_iff.1 hr
  exact h _ _ _ hp

theorem checks_liftM {P : Prop} {program : StoreM α} (h : Checks P program) :
    Checks P (liftM program : MarketM σ α) := by
  intro market
  rcases h market.store with ⟨hp, value, hok⟩ | ⟨hn, refusal, hr, hcode⟩
  · exact .inl ⟨hp, value, liftM_eq_ok_iff.2 ⟨_, hok, rfl⟩⟩
  · exact .inr ⟨hn, refusal, liftM_eq_error_iff.2 ⟨_, hr, rfl⟩, hcode⟩

theorem screens_liftM {P : Prop} {program : StoreM α} (h : Screens P codes program) :
    Screens P codes (liftM program : MarketM σ α) where
  refusesOnly hp := refusesOnly_liftM (h.refusesOnly hp)
  invalid hn market := by
    obtain ⟨refusal, hr, hcode⟩ := h.invalid hn market.store
    exact ⟨refusal, liftM_eq_error_iff.2 ⟨_, hr, rfl⟩, hcode⟩

/-- What stands after a refusal is not carried out. -/
theorem refusesOnly_refuse_bind {β : Type} {refusal : Refusal} (h : refusal.code ∈ codes)
    (next : α → MarketM σ β) :
    RefusesOnly codes ((liftM (StoreM.refuse refusal : StoreM α) : MarketM σ α) >>= next) := by
  intro _ _ _ hr
  cases hr
  exact h

variable [Currency σ]

theorem refusesOnly_ensureCanPay (payer : AccountId) (amount : Int) (h : .insufficientFunds ∈ codes) :
    RefusesOnly codes (ensureCanPay payer amount : MarketM σ Unit) := by
  intro market final refusal hr
  rw [ensureCanPay_eq] at hr
  dsimp only at hr
  split at hr
  · cases hr
  · cases hr
    exact h

theorem refusesOnly_pay (payer payee : AccountId) (amount : Int) (h : .insufficientFunds ∈ codes) :
    RefusesOnly codes (pay payer payee amount : MarketM σ Unit) := by
  intro market final refusal hr
  rw [pay_eq] at hr
  dsimp only at hr
  split at hr
  · cases hr
  · cases hr
    exact h

theorem screens_launchBuy (edition bid : Value) :
    Screens (Action.launchBuy edition bid).WellFormed (Action.launchBuy edition bid).reasons
      (launchBuy caller edition bid : MarketM σ Receipt) := by
  refine Screens.bind (checks_liftM (checks_itemId "launch_token_id" edition)) fun edition => ?_
  refine Screens.of_check (checks_liftM (checks_amount "bid_price" bid)) fun bid => ?_
  refine (refusesOnly_liftM (Issuance.refusesOnly_require edition (by simp))).bind fun record => ?_
  refine (refusesOnly_liftM (Issuance.neverRefuses_ownerOf edition).refusesOnly).bind fun seller => ?_
  refine RefusesOnly.ite (refusesOnly_refuse_bind (by simp) _) ?_
  refine RefusesOnly.ite (refusesOnly_refuse_bind (by simp) _) ?_
  refine (refusesOnly_ensureCanPay caller bid (by simp)).bind fun _ => ?_
  refine (refusesOnly_liftM (Issuance.refusesOnly_issue edition caller (by simp) (by simp)
    (by simp) (by simp))).bind fun token => ?_
  exact (refusesOnly_pay caller seller bid (by simp)).bind fun _ => .pure _

theorem screens_buy (token bid : Value) :
    Screens (Action.buy token bid).WellFormed (Action.buy token bid).reasons
      (buy caller token bid : MarketM σ Receipt) := by
  refine Screens.bind (checks_liftM (checks_itemId "token_id" token)) fun token => ?_
  refine Screens.of_check (checks_liftM (checks_amount "bid_price" bid)) fun bid => ?_
  refine (refusesOnly_liftM (Holdings.refusesOnly_require token (by simp))).bind fun record => ?_
  split
  · exact refusesOnly_liftM (StoreM.refusesOnly_refuse (by simp))
  · refine RefusesOnly.ite (refusesOnly_refuse_bind (by simp) _) ?_
    refine RefusesOnly.ite (refusesOnly_refuse_bind (by simp) _) ?_
    refine (refusesOnly_ensureCanPay caller bid (by simp)).bind fun _ => ?_
    refine (refusesOnly_liftM (Holdings.refusesOnly_transfer token _ caller (by simp)
      (by simp))).bind fun _ => ?_
    refine (refusesOnly_liftM (Holdings.refusesOnly_setPrice token none (by simp))).bind fun _ => ?_
    exact (refusesOnly_pay caller _ bid (by simp)).bind fun _ => .pure _

/-- An action that is not well-formed is refused as invalid before it changes anything, and any other action
is refused for its own reasons only. -/
theorem screens_perform (caller : AccountId) (action : Action) :
    Screens action.WellFormed action.reasons (perform caller action : MarketM σ Receipt) := by
  cases action with
  | createAccount creator => exact screens_liftM (screens_createAccount creator)
  | dropAccount creator => exact screens_liftM (screens_dropAccount creator)
  | mint creator price description => exact screens_liftM (screens_mint creator price description)
  | launchGift creator edition receiver =>
    exact screens_liftM (screens_launchGift creator edition receiver)
  | launchBuy edition bid => exact screens_launchBuy edition bid
  | buy token bid => exact screens_buy token bid
  | transfer token => exact screens_liftM (screens_transfer token)
  | list token price => exact screens_liftM (screens_list token price)
  | unlist token => exact screens_liftM (screens_unlist token)
  | setLaunchPrice creator edition price =>
    exact screens_liftM (screens_setLaunchPrice creator edition price)
  | setPrice token price => exact screens_liftM (screens_setPrice token price)
  | burn token => exact screens_liftM (screens_burn token)

/-! ### Calls -/

variable {action : Action} {refusal : Refusal} {market next : Market σ}

/-- A call is refused because its action is. -/
theorem perform_of_act_refused (h : act caller action market = .ok (.refused refusal) next) :
    ∃ final, perform caller action market = .error (.refused refusal) final := by
  cases hj : market.store.journal with
  | none =>
    rw [act_eq caller action hj] at h
    rcases hp : perform caller action market with _ | ⟨found | _ | _, final⟩ <;> rw [hp] at h <;>
      cases h
    exact ⟨final, rfl⟩
  | some journal =>
    unfold act at h
    rw [transaction_of_open hj] at h
    rcases hp : perform caller action market with _ | ⟨found | _ | _, final⟩ <;> rw [hp] at h <;>
      cases h
    exact ⟨next, rfl⟩

/-- A call changes nothing if its action is refused before it has changed anything. -/
theorem act_of_perform_refused (h : perform caller action market = .error (.refused refusal) market) :
    act caller action market = .ok (.refused refusal) market := by
  cases hj : market.store.journal with
  | none => rw [act_eq caller action hj, h]
  | some journal =>
    unfold act
    rw [transaction_of_open hj, h]

/-- **The code of an invalid argument is returned exactly if an argument is malformed, unless it cannot be
told.** Whatever the market looks like, an answer whose value has this code is given to malformed calls only.
A malformed call is refused with this code and changes nothing, and the value that is returned has the code,
with one exception: nothing is returned if the message would have to spell out an integer of more than 4300
digits. -/
theorem invalid_argument_iff_malformed_unless_unwritable (caller : AccountId) (action : Action)
    (market : Market σ) :
    (∀ answer next, act caller action market = .ok answer next → answer.Shows .invalidArgument →
        ¬ action.WellFormed) ∧
      (¬ action.WellFormed →
        ∃ refusal, act caller action market = .ok (.refused refusal) market ∧
          refusal.code = .invalidArgument ∧
            if ∃ n ∈ refusal.spelled, Nat.pow 10 Text.mostDigits ≤ n.natAbs then
              (Answer.refused refusal).reply? = none
            else (Answer.refused refusal).Shows .invalidArgument) := by
  have hscreens : Screens action.WellFormed action.reasons
      (perform caller action : MarketM σ Receipt) := screens_perform caller action
  constructor
  -- A well-formed action is refused for its own reasons, none of which is an invalid argument.
  · intro answer next hact hshows hwell
    obtain ⟨refusal, rfl, -, hcode⟩ := Answer.shows_iff.1 hshows
    obtain ⟨final, hr⟩ := perform_of_act_refused hact
    have hmem := hscreens.refusesOnly hwell _ _ _ hr
    rw [hcode] at hmem
    exact action.invalidArgument_notMem_reasons hmem
  · intro hn
    obtain ⟨refusal, hr, hcode⟩ := hscreens.invalid hn market
    refine ⟨refusal, act_of_perform_refused hr, hcode, ?_⟩
    split
    case isTrue hlong => rw [Answer.reply?_refused, if_pos hlong]
    case isFalse hshort => exact Answer.shows_iff.2 ⟨refusal, rfl, hshort, hcode⟩

theorem invalid_argument_iff_malformed_unless_unwritable_below :
    let market : Market Bank := ⟨default, {}, { time := "" }, Method.settings⟩
    let action : Action := .list (.int 1) (.int (-1))
    ¬ action.WellFormed ∧ ∃ refusal, act (.name "c") action market = .ok (.refused refusal) market ∧
      refusal.code = .invalidArgument ∧ (Answer.refused refusal).Shows .invalidArgument := by
  intro market action
  have hmalformed : ¬ action.WellFormed := by
    rintro ⟨-, n, hn, hle⟩
    rw [← Value.int.inj hn] at hle
    exact absurd hle (by decide)
  obtain ⟨refusal, hact, hcode, hshown⟩ :=
    (invalid_argument_iff_malformed_unless_unwritable (.name "c") action market).2 hmalformed
  have hrefused : refusal = .amountNegative "price" (-1) := by
    have hanswer : act (.name "c") action market = .ok (.refused (.amountNegative "price" (-1))) market := rfl
    rw [hanswer] at hact
    cases hact
    rfl
  subst hrefused
  have hshort : ¬ ∃ n ∈ (Refusal.amountNegative "price" (-1)).spelled, Nat.pow 10 Text.mostDigits ≤ n.natAbs := by
    decide +kernel
  refine ⟨hmalformed, _, hact, hcode, ?_⟩
  rwa [if_neg hshort] at hshown

/-- A price of 4301 digits that is below zero is malformed, and the caller is not told so. -/
theorem long_price_is_not_told :
    let market : Market Bank := ⟨default, {}, { time := "" }, Method.settings⟩
    let action : Action := .list (.int 1) (.int (-(Nat.pow 10 4300 : Nat)))
    let refusal : Refusal := .amountNegative "price" (-(Nat.pow 10 4300 : Nat))
    ¬ action.WellFormed ∧ act (.name "c") action market = .ok (.refused refusal) market ∧
      refusal.code = .invalidArgument ∧ (Answer.refused refusal).reply? = none := by
  intro market action refusal
  have hnegative : (-(Nat.pow 10 4300 : Nat) : Int) < 0 := by decide +kernel
  have hmalformed : ¬ action.WellFormed := by
    rintro ⟨-, n, hn, hle⟩
    rw [← Value.int.inj hn] at hle
    exact absurd hnegative (Int.not_lt.2 hle)
  have hitem : Argument.itemId "token_id" (.int 1) = .ok 1 :=
    Argument.itemId_eq_ok_iff.2 ⟨rfl, by decide⟩
  have hamount (n : Int) (h : n < 0) :
      Argument.amount "price" (.int n) = .error (.amountNegative "price" n) := if_pos h
  have hprice : Argument.amount "price" (.int (-(Nat.pow 10 4300 : Nat))) = .error refusal :=
    hamount _ hnegative
  have hlist : list (.name "c") (.int 1) (.int (-(Nat.pow 10 4300 : Nat))) market.store =
      .error (.refused refusal) market.store := by
    unfold list
    rw [Program.bind_of_ok (StoreM.ofExcept_eq_ok_iff.2 ⟨hitem, rfl⟩), hprice]
    rfl
  have hperform : perform (.name "c") action market = .error (.refused refusal) market :=
    liftM_eq_error_iff.2 ⟨market.store, hlist, rfl⟩
  have hreply : (Answer.refused refusal).reply? = none := by
    decide +kernel
  exact ⟨hmalformed, act_of_perform_refused hperform, rfl, hreply⟩

end Market

end EditionMarket
