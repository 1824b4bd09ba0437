import EditionMarket.Proofs.Market.Run

/-!
# Calls that fail are refused

A fault that is not a refusal means that a store does not look as it should, and is not an answer. This
file proves that a launch never ends with such a fault, so whatever prevents it is told to the caller.

Main statements: `answer_launch`, a launch is either completed or refused, and
`answer_launch_of_isSoldOut`, it is refused if the edition is sold out.
-/

namespace EditionMarket

variable {τ α β : Type}

/-- If the program fails, it is with a refusal. -/
def RefusesAt (program : EStateM Fault τ α) (state : τ) : Prop :=
  match program state with
  | .ok _ _ => True
  | .error fault _ => ∃ refusal, fault = .refused refusal

theorem RefusesAt.of_ok {program : EStateM Fault τ α} {state final : τ} {value : α}
    (h : program state = .ok value final) : RefusesAt program state := by
  unfold RefusesAt
  rw [h]
  trivial

theorem RefusesAt.of_refused {program : EStateM Fault τ α} {state final : τ} {refusal : Refusal}
    (h : program state = .error (.refused refusal) final) : RefusesAt program state := by
  unfold RefusesAt
  rw [h]
  exact ⟨refusal, rfl⟩

/-- Two programs in a row: the second one is responsible for what it finds after a success of the first
one. -/
theorem RefusesAt.bind {first : EStateM Fault τ α} {second : α → EStateM Fault τ β} {state : τ}
    (hfirst : RefusesAt first state)
    (hsecond : ∀ value middle, first state = .ok value middle → RefusesAt (second value) middle) :
    RefusesAt (first >>= second) state := by
  cases h : first state with
  | error fault middle =>
    unfold RefusesAt at hfirst ⊢
    rw [h] at hfirst
    rw [Program.bind_of_error h]
    exact hfirst
  | ok value middle =>
    have hs := hsecond value middle h
    unfold RefusesAt at hs ⊢
    rw [Program.bind_of_ok h]
    exact hs

theorem RefusesAt.ite {c : Prop} [Decidable c] {yes no : EStateM Fault τ α} {state : τ}
    (hyes : c → RefusesAt yes state) (hno : ¬ c → RefusesAt no state) :
    RefusesAt (if c then yes else no) state := by
  split
  case isTrue h => exact hyes h
  case isFalse h => exact hno h

/-- A program that is still to be shown to refuse may be taken not to succeed. -/
theorem RefusesAt.of_fails {τ : Type} {program : EStateM Fault τ α} {state : τ}
    (h : (∀ value final, ¬ program state = .ok value final) → RefusesAt program state) :
    RefusesAt program state := by
  by_cases hok : ∃ value final, program state = .ok value final
  · obtain ⟨value, final, hok⟩ := hok
    exact .of_ok hok
  · apply h
    intro value final hr
    exact hok ⟨value, final, hr⟩

/-! ## Work on a store -/

section Store

variable {limits : Limits} {ceiling : Int} {contents : Contents}

theorem StoreM.refusesAt_refuse (refusal : Refusal) (store : Store) :
    RefusesAt (refuse refusal : StoreM α) store :=
  .of_refused rfl

theorem StoreM.refusesAt_ofExcept (check : Except Refusal α) (store : Store) :
    RefusesAt (ofExcept check) store := by
  cases check with
  | ok value => exact .of_ok rfl
  | error refusal => exact .of_refused rfl

/-- What stands after a refusal does not matter. -/
theorem StoreM.refusesAt_refuse_bind (refusal : Refusal) (next : α → StoreM β) (store : Store) :
    RefusesAt (refuse refusal >>= next) store :=
  (refusesAt_refuse refusal store).bind fun _ _ h => absurd h (refuse_ne_ok _ _)

/-- After a check, what follows starts where the check did. -/
theorem StoreM.refusesAt_ofExcept_bind {check : Except Refusal α} {next : α → StoreM β} {store : Store}
    (h : ∀ value, check = .ok value → RefusesAt (next value) store) :
    RefusesAt (ofExcept check >>= next) store := by
  apply (refusesAt_ofExcept check store).bind
  intro value middle hr
  obtain ⟨hvalue, rfl⟩ := ofExcept_eq_ok_iff.1 hr
  exact h value hvalue

theorem Family.refusesAt_push {κ ι : Type} (family : Family κ ι) (key : κ) (item : ι)
    (full : Nat → Refusal) :
    RefusesAt (family.push key item fun limit => .refused (full limit))
      (.idle limits ceiling contents) := by
  obtain ⟨middle, hfetch, -⟩ := family.fetch_eq limits ceiling contents key
  refine (RefusesAt.of_ok hfetch).bind fun roster _ _ => ?_
  cases roster.push? item with
  | some longer => exact .of_ok rfl
  | none => exact .of_refused rfl

theorem Numbering.refusesAt_nextEdition : RefusesAt nextEdition (.idle limits ceiling contents) :=
  (RefusesAt.of_ok (StoreM.peek_eq .lastEdition)).bind fun _ _ _ => StoreM.refusesAt_ofExcept _ _

theorem Numbering.refusesAt_nextToken : RefusesAt nextToken (.idle limits ceiling contents) :=
  (RefusesAt.of_ok (StoreM.peek_eq .lastToken)).bind fun _ _ _ => StoreM.refusesAt_ofExcept _ _

theorem Registry.refusesAt_ensureOwner (account : AccountId) (id : CreatorId) :
    RefusesAt (ensureOwner account id) (.idle limits ceiling contents) := by
  refine RefusesAt.ite (fun _ => ?_) fun _ => ?_
  · exact StoreM.refusesAt_refuse_bind _ _ _
  · refine (RefusesAt.of_ok (ownerOf_eq id)).bind fun _ _ _ => ?_
    exact RefusesAt.ite (fun _ => StoreM.refusesAt_refuse _ _) fun _ => .of_ok rfl

namespace Issuance

theorem refusesAt_require (id : ItemId) :
    RefusesAt (require id) (.idle limits ceiling contents) := by
  refine (RefusesAt.of_ok (get?_eq id)).bind fun found _ _ => ?_
  cases found with
  | some edition => exact .of_ok rfl
  | none => exact .of_refused rfl

theorem refusesAt_ensureCreator (creator : CreatorId) (id : ItemId) :
    RefusesAt (ensureCreator creator id) (.idle limits ceiling contents) := by
  refine (RefusesAt.of_ok (get?_eq id)).bind fun found _ _ => ?_
  cases found with
  | none => exact .of_refused rfl
  | some edition =>
    exact RefusesAt.ite (fun _ => StoreM.refusesAt_refuse _ _) fun _ => .of_ok rfl

/-- The last check is whether there is room for the token. What follows does not fail. -/
theorem refusesAt_issue (edition : ItemId) (receiver : AccountId) :
    RefusesAt (issue edition receiver) (.idle limits ceiling contents) := by
  apply RefusesAt.of_fails
  intro hfails
  refine (refusesAt_require edition).bind fun source _ h => ?_
  obtain ⟨hsource, rfl⟩ := require_eq_ok_iff.1 h
  refine RefusesAt.ite (fun _ => ?_) fun hleft => ?_
  · exact StoreM.refusesAt_refuse_bind _ _ _
  refine Numbering.refusesAt_nextToken.bind fun id _ h => ?_
  obtain ⟨⟨hcount, rfl⟩, rfl⟩ := Numbering.nextToken_eq_ok_iff.1 h
  refine (Family.tokensOf.refusesAt_push _ _ _).bind fun _ _ h => ?_
  obtain ⟨hroom, rfl⟩ := Family.isField_tokensOf.push_eq_ok_iff.1 h
  -- All checks have passed, so the program succeeds.
  have hdone := issue_eq_ok_iff.2
    ⟨source, hsource, Bool.eq_false_iff.2 hleft, hcount, hroom, rfl, rfl⟩
  exact absurd hdone (hfails _ _)

end Issuance

end Store

/-! ## Launches -/

/-- The action is to launch a token of an edition. -/
def Action.Launches (id : ItemId) : Action → Prop
  | launchGift _ edition _ => Argument.itemId "launch_token_id" edition = .ok id
  | launchBuy edition _ => Argument.itemId "launch_token_id" edition = .ok id
  | _ => False

namespace Market

variable {σ : Type} {limits : Limits} {ceiling : Int} {contents : Contents} {caller : AccountId}

theorem refusesAt_ensureMinter (creator : CreatorId) (edition : ItemId) :
    RefusesAt (ensureMinter caller creator edition) (.idle limits ceiling contents) := by
  unfold ensureMinter
  rw [Program.discard_eq_bind]
  refine ((Issuance.refusesAt_require edition).bind fun _ _ _ => .of_ok rfl).bind fun _ _ h => ?_
  obtain ⟨_, _, hrequire, hmiddle⟩ := Program.bind_eq_ok_iff.1 h
  obtain ⟨-, rfl⟩ := Issuance.require_eq_ok_iff.1 hrequire
  obtain ⟨-, rfl⟩ := Program.pure_eq_ok_iff.1 hmiddle
  refine (Registry.refusesAt_ensureOwner caller creator).bind fun _ _ h => ?_
  obtain ⟨-, -, rfl⟩ := Registry.ensureOwner_eq_ok_iff.1 h
  exact Issuance.refusesAt_ensureCreator creator edition

theorem refusesAt_launchGift (creator edition receiver : Value) :
    RefusesAt (launchGift caller creator edition receiver) (.idle limits ceiling contents) := by
  apply StoreM.refusesAt_ofExcept_bind
  intro creator _
  apply StoreM.refusesAt_ofExcept_bind
  intro edition _
  apply StoreM.refusesAt_ofExcept_bind
  intro receiver _
  refine (refusesAt_ensureMinter creator edition).bind fun _ _ h => ?_
  obtain ⟨-, -, -, rfl⟩ := ensureMinter_eq_ok_iff.1 h
  exact (Issuance.refusesAt_issue edition receiver).bind fun _ _ _ => .of_ok rfl

/-- A program on the store of a market fails as it does on the store alone. -/
theorem refusesAt_liftM {program : StoreM α} {store : Store} (h : RefusesAt program store)
    (funds : σ) (events : EventLog) (methods : Method → MethodSettings) :
    RefusesAt (liftM program : MarketM σ α) ⟨store, funds, events, methods⟩ := by
  rw [liftM_eq_onStore]
  unfold RefusesAt onStore at *
  dsimp only
  cases hr : program store with
  | ok value final => trivial
  | error fault final =>
    rw [hr] at h
    exact h

theorem refusesAt_refuse_bind (refusal : Refusal) (next : α → MarketM σ β) (market : Market σ) :
    RefusesAt (liftM (StoreM.refuse refusal : StoreM α) >>= next) market :=
  (refusesAt_liftM (StoreM.refusesAt_refuse _ _) _ _ _).bind fun _ _ h =>
    absurd h (liftM_refuse_ne_ok _ _)

variable [Currency σ]

theorem refusesAt_ensureCanPay (payer : AccountId) (amount : Int) (market : Market σ) :
    RefusesAt (ensureCanPay payer amount) market := by
  have h := ensureCanPay_eq payer amount market
  dsimp only at h
  split at h
  · exact .of_ok h
  · exact .of_refused h

theorem refusesAt_pay (payer payee : AccountId) (amount : Int) (market : Market σ) :
    RefusesAt (pay payer payee amount) market := by
  have h := pay_eq payer payee amount market
  dsimp only at h
  split at h
  · exact .of_ok h
  · exact .of_refused h

theorem refusesAt_launchBuy (edition bid : Value) (funds : σ) (events : EventLog)
    (methods : Method → MethodSettings) :
    RefusesAt (launchBuy caller edition bid)
      (⟨.idle limits ceiling contents, funds, events, methods⟩ : Market σ) := by
  refine (refusesAt_liftM (StoreM.refusesAt_ofExcept _ _) _ _ _).bind fun edition _ h => ?_
  obtain ⟨-, rfl⟩ := liftM_ofExcept_eq_ok_iff.1 h
  refine (refusesAt_liftM (StoreM.refusesAt_ofExcept _ _) _ _ _).bind fun bid _ h => ?_
  obtain ⟨-, rfl⟩ := liftM_ofExcept_eq_ok_iff.1 h
  refine (refusesAt_liftM (Issuance.refusesAt_require edition) _ _ _).bind fun source _ h => ?_
  obtain ⟨_, hrequire, rfl⟩ := liftM_eq_ok_iff.1 h
  obtain ⟨hsource, rfl⟩ := Issuance.require_eq_ok_iff.1 hrequire
  refine (refusesAt_liftM (.of_ok (Issuance.ownerOf_eq hsource)) _ _ _).bind fun seller _ h => ?_
  obtain ⟨_, howner, rfl⟩ := liftM_eq_ok_iff.1 h
  rw [Issuance.ownerOf_eq hsource] at howner
  cases howner
  refine RefusesAt.ite (fun _ => refusesAt_refuse_bind _ _ _) fun _ => ?_
  refine RefusesAt.ite (fun _ => refusesAt_refuse_bind _ _ _) fun _ => ?_
  refine (refusesAt_ensureCanPay caller bid _).bind fun _ _ h => ?_
  obtain ⟨-, rfl⟩ := ensureCanPay_eq_ok_iff.1 h
  refine (refusesAt_liftM (Issuance.refusesAt_issue edition caller) _ _ _).bind fun token _ _ => ?_
  exact (refusesAt_pay _ _ _ _).bind fun _ _ _ => .of_ok rfl

/-! ## Calls -/

/-- An action that refuses where it does not succeed is either completed or refused as a call. -/
theorem answer_of_refusesAt {market : Market σ} {call : Call} (hn : market.store.journal = none)
    (h : RefusesAt (perform call.caller call.action) market) :
    (∃ receipt, market.answer call = .ok (.done receipt)) ∨
      ∃ refusal, market.answer call = .ok (.refused refusal) := by
  unfold answer
  rw [act_eq call.caller call.action hn]
  unfold RefusesAt at h
  cases hp : perform call.caller call.action market with
  | ok receipt next => exact .inl ⟨receipt, rfl⟩
  | error fault next =>
    rw [hp] at h
    obtain ⟨refusal, rfl⟩ := h
    exact .inr ⟨refusal, rfl⟩

/-- A launch is either completed or refused. -/
theorem answer_launch {market : Market σ} {call : Call} {id : ItemId}
    (hn : market.store.journal = none) (hlaunch : call.action.Launches id) :
    (∃ receipt, market.answer call = .ok (.done receipt)) ∨
      ∃ refusal, market.answer call = .ok (.refused refusal) := by
  obtain ⟨store, funds, events, methods⟩ := market
  obtain ⟨caller, action⟩ := call
  have hstore : store = .idle store.limits store.ceiling store.contents := Store.eq_idle hn
  refine answer_of_refusesAt hn ?_
  rw [hstore]
  cases action with
  | launchGift creator edition receiver =>
    exact refusesAt_liftM (refusesAt_launchGift creator edition receiver) funds events methods
  | launchBuy edition bid => exact refusesAt_launchBuy edition bid funds events methods
  | _ => cases hlaunch

/-- Nothing is launched from an edition that is sold out. -/
theorem answer_launch_of_isSoldOut {market : Market σ} {call : Call} {id : ItemId}
    {source : Edition} (hn : market.store.journal = none) (hlaunch : call.action.Launches id)
    (hsource : market.store.contents.editions[id]? = some source)
    (hsold : source.isSoldOut = true) :
    ∃ refusal, market.answer call = .ok (.refused refusal) := by
  rcases answer_launch hn hlaunch with ⟨receipt, h⟩ | h
  -- No rule for launches lets a token be issued from an edition that is sold out.
  · exfalso
    obtain ⟨_, _, hdoes, -⟩ := after_of_done hn h
    obtain ⟨caller, action⟩ := call
    cases hdoes with
    | launchGift _ hid _ _ _ _ hfound _ hleft =>
      cases hid.symm.trans hlaunch
      cases hfound.symm.trans hsource
      cases hleft.symm.trans hsold
    | launchBuy hid _ hfound _ _ _ hleft =>
      cases hid.symm.trans hlaunch
      cases hfound.symm.trans hsource
      cases hleft.symm.trans hsold
    | _ => cases hlaunch
  · exact h

end Market

end EditionMarket
