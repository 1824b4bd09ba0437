import EditionMarket.Proofs.Bank
import EditionMarket.Proofs.Market.Atomicity
import EditionMarket.Proofs.Market.Rule
import EditionMarket.Proofs.Store.Refusal

/-!
# Calls inside an open transaction

Inside an open transaction a call's own transaction is a part of that one, so a call that is refused is not
undone. What it has done until then stays. This file shows that there is nothing to stay, because refusals
come before the first change, with one exception: the payment of a sale comes after the sale has been
written. If the currency does not make a payment that it said could be afforded, the sale stays, unpaid.

Main statements: `refused_call_keeps_unpaid_sale_only`, and `unpaid_sale_is_kept`, a call that is refused and
all the same leaves a token with the caller.
-/

namespace EditionMarket

/-! ## Unpaid sales -/

/-- The currency says that the payment can be afforded, and then does not make it. -/
def Currency.Withholds {σ : Type} [Currency σ] (funds : σ) (payment : Payment) : Prop :=
  ((Currency.canAfford payment.payer payment.amount).run funds).1 = true ∧
    ((Currency.pay payment.payer payment.payee payment.amount).run
      ((Currency.canAfford payment.payer payment.amount).run funds).2).1 = false

/-- A bank pays whatever it says can be afforded. -/
theorem Bank.not_withholds (bank : Bank) (payment : Payment) : ¬ Currency.Withholds bank payment := by
  rintro ⟨hcan, hpay⟩
  rw [Bank.run_canAfford] at hcan hpay
  obtain ⟨paid, hpaid⟩ := Option.isSome_iff_exists.1
    ((bank.isSome_pay? payment.payer payment.payee payment.amount true).trans hcan)
  rw [Bank.run_pay, hpaid] at hpay
  cases hpay

/-- The action is a sale that the rules allow, the refusal is of the payment for it, and the contents are those
after the sale. -/
def Contents.UnpaidSale {σ : Type} [Currency σ] (limits : Limits) (ceiling : Int) (contents : Contents)
    (funds : σ) (caller : AccountId) (action : Action) (refusal : Refusal) (after : Contents) : Prop :=
  ∃ receipt payment,
    contents.Does limits ceiling caller action receipt after ∧
      receipt.payment? = some payment ∧ Currency.Withholds funds payment ∧
        refusal = .paymentFailed payment.amount payment.payer payment.payee

/-- A sale changes something. -/
theorem Contents.Does.ne_of_payment {limits : Limits} {ceiling : Int} {contents after : Contents}
    {caller : AccountId} {action : Action} {receipt : Receipt} {payment : Payment}
    (hdoes : contents.Does limits ceiling caller action receipt after)
    (hpayment : receipt.payment? = some payment) : after ≠ contents := by
  intro heq
  cases hdoes with
  | launchBuy =>
    have hlast : contents.lastToken + 1 = contents.lastToken := congrArg Contents.lastToken heq
    omega
  | @buy _ _ id _ _ record _ _ hrecord _ howner =>
    have hfound := congrArg (fun contents => contents.tokens[id]?) heq
    simp only [Contents.priced, Contents.moved, Table.getElem?_put, if_true, hrecord,
      Option.some.injEq] at hfound
    exact howner (congrArg Token.owner hfound).symm
  | _ => cases hpayment

/-- A journal that names no slot twice covers the way from what restoring it gives to what there is. -/
theorem Journal.covers_of_nodup {journal : Journal} (h : journal.slots.Nodup) (now : Contents) :
    journal.Covers (journal.restore now) now where
  nodup := h
  prior_eq _ hm := (read_restore_of_mem now h hm).symm
  read_eq _ hn := (read_restore_of_notMem now hn).symm

/-- A journal that remembers no slot twice records everything since the state that undoing leads to. -/
theorem Store.recording_rollBack {store : Store} {journal : Journal} (hj : store.journal = some journal)
    (hnodup : journal.slots.Nodup) : Store.Recording store.rollBack [] store := by
  refine ⟨rfl, rfl, ⟨journal, hj, ?_⟩, List.nil_subset _⟩
  show journal.Covers ((store.journal.getD []).restore store.contents) _
  rw [hj]
  exact Journal.covers_of_nodup hnodup store.contents

namespace Market

variable {σ α β : Type} {limits : Limits} {ceiling : Int} {contents : Contents} {caller : AccountId}

/-! ## Actions without a payment -/

theorem looksOnly_ensureListed (caller : AccountId) (token : ItemId) :
    LooksOnly (ensureListed caller token) := by
  refine (Holdings.looksOnly_require token).bind fun record => ?_
  refine (Holdings.looksOnly_ensureOwner caller token).bind fun _ => ?_
  exact LooksOnly.ite (LooksOnly.refuse _) (LooksOnly.pure _)

theorem looksOnly_ensureMinter (caller : AccountId) (creator : CreatorId) (edition : ItemId) :
    LooksOnly (ensureMinter caller creator edition) := by
  refine (Issuance.looksOnly_require edition).discard.bind fun _ => ?_
  refine (Registry.looksOnly_ensureOwner caller creator).bind fun _ => ?_
  exact Issuance.looksOnly_ensureCreator creator edition

theorem refusesFirst_createAccount (caller : AccountId) (creator : Value) :
    RefusesFirst (createAccount caller creator) :=
  (Registry.refusesFirst_register creator caller).bind fun _ => NeverRefuses.pure _

theorem refusesFirst_dropAccount (caller : AccountId) (creator : Value) :
    RefusesFirst (dropAccount caller creator) := by
  refine (LooksOnly.ofExcept _).bind_refusesFirst fun id => ?_
  exact (Registry.refusesFirst_release id caller).bind fun _ => NeverRefuses.pure _

theorem refusesFirst_mint (caller : AccountId) (creator price : Value)
    (description : Description) : RefusesFirst (mint caller creator price description) := by
  refine (LooksOnly.ofExcept _).bind_refusesFirst fun creator => ?_
  refine (LooksOnly.ofExcept _).bind_refusesFirst fun price => ?_
  refine (LooksOnly.ofExcept _).bind_refusesFirst fun metadata => ?_
  refine (Registry.looksOnly_ensureOwner caller creator).bind_refusesFirst fun _ => ?_
  exact (Issuance.refusesFirst_mint creator price metadata).bind fun _ => NeverRefuses.pure _

theorem refusesFirst_launchGift (caller : AccountId) (creator edition receiver : Value) :
    RefusesFirst (launchGift caller creator edition receiver) := by
  refine (LooksOnly.ofExcept _).bind_refusesFirst fun creator => ?_
  refine (LooksOnly.ofExcept _).bind_refusesFirst fun edition => ?_
  refine (LooksOnly.ofExcept _).bind_refusesFirst fun receiver => ?_
  refine (looksOnly_ensureMinter caller creator edition).bind_refusesFirst fun _ => ?_
  exact (Issuance.refusesFirst_issue edition receiver).bind fun _ => NeverRefuses.pure _

theorem refusesFirst_transfer (caller : AccountId) (token : Value) :
    RefusesFirst (transfer caller token) := by
  refine (LooksOnly.ofExcept _).bind_refusesFirst fun token => ?_
  refine (Holdings.looksOnly_require token).discard.bind_refusesFirst fun _ => ?_
  refine (Holdings.looksOnly_ensureOwner caller token).bind_refusesFirst fun _ => ?_
  exact (Holdings.refusesFirst_transfer token caller caller).bind fun _ => NeverRefuses.pure _

theorem refusesFirst_list (caller : AccountId) (token price : Value) :
    RefusesFirst (list caller token price) := by
  refine (LooksOnly.ofExcept _).bind_refusesFirst fun token => ?_
  refine (LooksOnly.ofExcept _).bind_refusesFirst fun price => ?_
  refine (Holdings.looksOnly_require token).bind_refusesFirst fun record => ?_
  refine (Holdings.looksOnly_ensureOwner caller token).bind_refusesFirst fun _ => ?_
  split
  · exact (LooksOnly.refuse _).refusesFirst
  · exact (Holdings.refusesFirst_setPrice token _).bind fun _ => NeverRefuses.pure _

theorem refusesFirst_unlist (caller : AccountId) (token : Value) :
    RefusesFirst (unlist caller token) := by
  refine (LooksOnly.ofExcept _).bind_refusesFirst fun token => ?_
  refine (looksOnly_ensureListed caller token).bind_refusesFirst fun _ => ?_
  exact (Holdings.refusesFirst_setPrice token _).bind fun _ => NeverRefuses.pure _

theorem refusesFirst_setLaunchPrice (caller : AccountId) (creator edition price : Value) :
    RefusesFirst (setLaunchPrice caller creator edition price) := by
  refine (LooksOnly.ofExcept _).bind_refusesFirst fun creator => ?_
  refine (LooksOnly.ofExcept _).bind_refusesFirst fun edition => ?_
  refine (LooksOnly.ofExcept _).bind_refusesFirst fun price => ?_
  refine (looksOnly_ensureMinter caller creator edition).bind_refusesFirst fun _ => ?_
  exact (Issuance.refusesFirst_setPrice edition price).bind fun _ => NeverRefuses.pure _

theorem refusesFirst_setPrice (caller : AccountId) (token price : Value) :
    RefusesFirst (setPrice caller token price) := by
  refine (LooksOnly.ofExcept _).bind_refusesFirst fun token => ?_
  refine (LooksOnly.ofExcept _).bind_refusesFirst fun price => ?_
  refine (looksOnly_ensureListed caller token).bind_refusesFirst fun _ => ?_
  exact (Holdings.refusesFirst_setPrice token _).bind fun _ => NeverRefuses.pure _

theorem refusesFirst_burn (caller : AccountId) (token : Value) :
    RefusesFirst (burn caller token) := by
  refine (LooksOnly.ofExcept _).bind_refusesFirst fun token => ?_
  refine (Holdings.looksOnly_require token).bind_refusesFirst fun record => ?_
  refine (Holdings.looksOnly_ensureOwner caller token).bind_refusesFirst fun _ => ?_
  exact (Holdings.refusesFirst_burn token).bind fun _ => NeverRefuses.pure _

/-! ## Sales -/

variable {funds : σ} {events : EventLog} {methods : Method → MethodSettings}

/-- If the program is refused at this market, what it leaves in the store is as `Q` says. -/
def RefusedWith (Q : Refusal → Contents → Prop) (program : MarketM σ α) (market : Market σ) : Prop :=
  ∀ refusal next, program market = .error (.refused refusal) next → Q refusal next.store.contents

namespace RefusedWith

variable {Q : Refusal → Contents → Prop} {market : Market σ}

/-- The second program is responsible for what it finds after a success of the first one. -/
theorem bind {first : MarketM σ α} {second : α → MarketM σ β} (hfirst : RefusedWith Q first market)
    (hsecond : ∀ value middle, first market = .ok value middle → RefusedWith Q (second value) middle) :
    RefusedWith Q (first >>= second) market := by
  intro refusal next hr
  rcases Program.bind_eq_error_iff.1 hr with hr | ⟨value, middle, hok, hr⟩
  · exact hfirst refusal next hr
  · exact hsecond value middle hok refusal next hr

theorem of_ok {program : MarketM σ α} {value : α} {next : Market σ}
    (h : program market = .ok value next) : RefusedWith Q program market := by
  intro refusal final hr
  rw [h] at hr
  cases hr

theorem pure (value : α) : RefusedWith Q (Pure.pure value) market := of_ok rfl

theorem ite {c : Prop} [Decidable c] {yes no : MarketM σ α} (hyes : c → RefusedWith Q yes market)
    (hno : ¬ c → RefusedWith Q no market) : RefusedWith Q (if c then yes else no) market := by
  split
  case isTrue h => exact hyes h
  case isFalse h => exact hno h

/-- A program on the store that refuses before the first change leaves the contents that it found. -/
theorem onStore {program : StoreM α} (h : RefusesFirst program)
    (hsame : ∀ refusal, Q refusal market.store.contents) :
    RefusedWith Q (liftM program : MarketM σ α) market := by
  intro refusal next hr
  rw [liftM_eq_onStore] at hr
  unfold Market.onStore at hr
  cases hp : program market.store with
  | ok value final =>
    rw [hp] at hr
    cases hr
  | error fault final =>
    rw [hp] at hr
    cases hr
    rw [show final.contents = market.store.contents from h _ _ _ hp]
    exact hsame refusal

theorem refuse_bind {refusal : Refusal} {next : α → MarketM σ β}
    (hsame : ∀ refusal, Q refusal market.store.contents) :
    RefusedWith Q ((liftM (StoreM.refuse refusal : StoreM α) : MarketM σ α) >>= next) market :=
  (onStore (LooksOnly.refuse refusal).refusesFirst hsame).bind fun _ _ h =>
    absurd h (liftM_refuse_ne_ok _ _)

end RefusedWith

variable [Currency σ] {Q : Refusal → Contents → Prop} {store : Store}

/-- To ask the currency is not to change the store. -/
theorem refusedWith_ensureCanPay (payer : AccountId) (amount : Int) {market : Market σ}
    (hsame : ∀ refusal, Q refusal market.store.contents) :
    RefusedWith Q (ensureCanPay payer amount) market := by
  intro refusal next hr
  have h := ensureCanPay_eq payer amount market
  rw [hr] at h
  dsimp only at h
  split at h
  · cases h
  · cases h
    exact hsame _

/-- A payment that is not made is refused, and what has been done before it stays. -/
theorem refusedWith_pay (payer payee : AccountId) (amount : Int)
    (hkept : ((Currency.pay payer payee amount).run funds).1 = false →
      Q (.paymentFailed amount payer payee) store.contents) :
    RefusedWith Q (pay payer payee amount) ⟨store, funds, events, methods⟩ := by
  intro refusal next hr
  have h := pay_eq payer payee amount (⟨store, funds, events, methods⟩ : Market σ)
  rw [hr] at h
  dsimp only at h
  split at h
  case isTrue => cases h
  case isFalse hnot =>
    cases h
    exact hkept (Bool.eq_false_iff.2 hnot)

/-- What a refused action leaves of these contents: they are the same, or the action is a sale that has been
written and not been paid for. -/
def Leaves (limits : Limits) (ceiling : Int) (contents : Contents) (funds : σ) (caller : AccountId)
    (action : Action) (refusal : Refusal) (after : Contents) : Prop :=
  after = contents ∨ contents.UnpaidSale limits ceiling funds caller action refusal after

theorem refusedWith_launchBuy (edition bid : Value) :
    RefusedWith (Leaves limits ceiling contents funds caller (.launchBuy edition bid))
      (launchBuy caller edition bid) ⟨.idle limits ceiling contents, funds, events, methods⟩ := by
  have hsame (refusal : Refusal) :
      Leaves limits ceiling contents funds caller (.launchBuy edition bid) refusal contents := .inl rfl
  refine (RefusedWith.onStore (LooksOnly.ofExcept _).refusesFirst hsame).bind fun id _ h => ?_
  obtain ⟨hid, rfl⟩ := liftM_ofExcept_eq_ok_iff.1 h
  refine (RefusedWith.onStore (LooksOnly.ofExcept _).refusesFirst hsame).bind fun amount _ h => ?_
  obtain ⟨hbid, rfl⟩ := liftM_ofExcept_eq_ok_iff.1 h
  refine (RefusedWith.onStore (Issuance.looksOnly_require id).refusesFirst hsame).bind
    fun source _ h => ?_
  obtain ⟨_, hrequire, rfl⟩ := liftM_eq_ok_iff.1 h
  obtain ⟨hsource, rfl⟩ := Issuance.require_eq_ok_iff.1 hrequire
  refine (RefusedWith.onStore (Issuance.looksOnly_ownerOf id).refusesFirst hsame).bind
    fun seller _ h => ?_
  obtain ⟨_, howner, rfl⟩ := liftM_eq_ok_iff.1 h
  rw [Issuance.ownerOf_eq hsource] at howner
  cases howner
  refine RefusedWith.ite (fun _ => .refuse_bind hsame) fun hne => ?_
  refine RefusedWith.ite (fun _ => .refuse_bind hsame) fun hprice => ?_
  refine (refusedWith_ensureCanPay caller amount hsame).bind fun _ _ h => ?_
  obtain ⟨hcan, rfl⟩ := ensureCanPay_eq_ok_iff.1 h
  refine (RefusedWith.onStore (Issuance.refusesFirst_issue id caller) hsame).bind
    fun token _ h => ?_
  obtain ⟨_, hissue, rfl⟩ := liftM_eq_ok_iff.1 h
  obtain ⟨source', hsource', hleft, hcount, hroom, rfl, rfl⟩ := Issuance.issue_eq_ok_iff.1 hissue
  rw [hsource] at hsource'
  cases hsource'
  -- From here on the token is there, and only the payment can still be refused.
  refine (refusedWith_pay _ _ _ fun hpay => .inr ?_).bind fun _ _ _ => .pure _
  cases hrecord : contents.creators[source.creator]? with
  | none =>
    rw [hrecord] at hne
    exact absurd rfl hne
  | some record =>
    rw [hrecord] at hne hpay
    exact ⟨_, ⟨caller, record.owner, amount⟩,
      .launchBuy hid hbid hsource hrecord hne (Int.not_lt.1 hprice) hleft hcount hroom, rfl,
      ⟨hcan, hpay⟩, rfl⟩

theorem refusedWith_buy (token bid : Value) :
    RefusedWith (Leaves limits ceiling contents funds caller (.buy token bid)) (buy caller token bid)
      ⟨.idle limits ceiling contents, funds, events, methods⟩ := by
  have hsame (refusal : Refusal) :
      Leaves limits ceiling contents funds caller (.buy token bid) refusal contents := .inl rfl
  refine (RefusedWith.onStore (LooksOnly.ofExcept _).refusesFirst hsame).bind fun id _ h => ?_
  obtain ⟨hid, rfl⟩ := liftM_ofExcept_eq_ok_iff.1 h
  refine (RefusedWith.onStore (LooksOnly.ofExcept _).refusesFirst hsame).bind fun amount _ h => ?_
  obtain ⟨hbid, rfl⟩ := liftM_ofExcept_eq_ok_iff.1 h
  refine (RefusedWith.onStore (Holdings.looksOnly_require id).refusesFirst hsame).bind
    fun record _ h => ?_
  obtain ⟨_, hrequire, rfl⟩ := liftM_eq_ok_iff.1 h
  obtain ⟨hrecord, rfl⟩ := Holdings.require_eq_ok_iff.1 hrequire
  cases hlisted : record.price with
  | none => exact .onStore (LooksOnly.refuse _).refusesFirst hsame
  | some price =>
    refine RefusedWith.ite (fun _ => .refuse_bind hsame) fun howner => ?_
    refine RefusedWith.ite (fun _ => .refuse_bind hsame) fun hprice => ?_
    refine (refusedWith_ensureCanPay caller amount hsame).bind fun _ _ h => ?_
    obtain ⟨hcan, rfl⟩ := ensureCanPay_eq_ok_iff.1 h
    refine (RefusedWith.onStore (Holdings.refusesFirst_transfer id record.owner caller) hsame).bind
      fun _ _ h => ?_
    obtain ⟨_, hmove, rfl⟩ := liftM_eq_ok_iff.1 h
    obtain ⟨record', hrecord', hroom, rfl⟩ := Holdings.transfer_eq_ok_iff.1 hmove
    rw [hrecord] at hrecord'
    cases hrecord'
    -- The token that has just been moved is found again, so taking it off sale is not refused.
    have hunlist : Holdings.setPrice id none
        (.idle limits ceiling (contents.moved limits id record record.owner caller)) =
          .ok () (.idle limits ceiling ((contents.moved limits id record record.owner caller).priced id
            { record with owner := caller } none)) :=
      Holdings.setPrice_eq_ok_iff.2 ⟨_, Contents.tokens_moved_self, rfl⟩
    refine (RefusedWith.of_ok (liftM_eq_ok_iff.2 ⟨_, hunlist, rfl⟩)).bind fun _ _ h => ?_
    obtain ⟨_, hsame, rfl⟩ := liftM_eq_ok_iff.1 h
    cases hunlist.symm.trans hsame
    refine (refusedWith_pay _ _ _ fun hpay => .inr ?_).bind fun _ _ _ => .pure _
    exact ⟨_, ⟨caller, record.owner, amount⟩,
      .buy hid hbid hrecord hlisted howner (Int.not_lt.1 hprice) hroom, rfl, ⟨hcan, hpay⟩, rfl⟩

/-! ## Calls -/

/-- What an action leaves that is refused where no transaction is open. -/
theorem refusedWith_perform (action : Action) :
    RefusedWith (Leaves limits ceiling contents funds caller action) (perform caller action)
      ⟨.idle limits ceiling contents, funds, events, methods⟩ := by
  have hsame (action : Action) (refusal : Refusal) :
      Leaves limits ceiling contents funds caller action refusal contents := .inl rfl
  cases action with
  | createAccount creator => exact .onStore (refusesFirst_createAccount caller creator) (hsame _)
  | dropAccount creator => exact .onStore (refusesFirst_dropAccount caller creator) (hsame _)
  | mint creator price description =>
    exact .onStore (refusesFirst_mint caller creator price description) (hsame _)
  | launchGift creator edition receiver =>
    exact .onStore (refusesFirst_launchGift caller creator edition receiver) (hsame _)
  | launchBuy edition bid => exact refusedWith_launchBuy edition bid
  | buy token bid => exact refusedWith_buy token bid
  | transfer token => exact .onStore (refusesFirst_transfer caller token) (hsame _)
  | list token price => exact .onStore (refusesFirst_list caller token price) (hsame _)
  | unlist token => exact .onStore (refusesFirst_unlist caller token) (hsame _)
  | setLaunchPrice creator edition price =>
    exact .onStore (refusesFirst_setLaunchPrice caller creator edition price) (hsame _)
  | setPrice token price => exact .onStore (refusesFirst_setPrice caller token price) (hsame _)
  | burn token => exact .onStore (refusesFirst_burn caller token) (hsame _)

/-- An action that fails inside an open transaction fails in the same way where none is open, and what it
leaves will be undone if the transaction is. -/
theorem perform_of_open {action : Action} {market next : Market σ} {fault : Fault} {journal : Journal}
    (hj : market.store.journal = some journal) (hnodup : journal.slots.Nodup)
    (hp : perform caller action market = .error fault next) :
    perform caller action (closed market) = .error fault (closed next) ∧
      next.store.rollBack = market.store.rollBack := by
  -- Where the transaction has begun does not matter, so it may be where undoing it leads to.
  have hrecording := Store.recording_rollBack hj hnodup
  have h := recorded_perform caller action market.store.rollBack [] market (List.Subset.refl _)
    hrecording
  rw [hp] at h
  exact ⟨h.2, h.1.rollBack_eq.trans hrecording.rollBack_eq.symm⟩

/-- If the call, of this action if of any, is refused at this market, then it has changed the contents only if
the action is a sale that it leaves without a payment, and nothing else but the contents. To undo the open
transaction is to undo that as well. -/
def LeavesUnpaidSaleOnly (caller : AccountId) (called? : Option Action) (program : MarketM σ Answer)
    (market : Market σ) : Prop :=
  ∀ refusal next, program market = .ok (.refused refusal) next →
    next.AgreesOutside market ∧ next.store.rollBack = market.store.rollBack ∧
      (next.store.contents ≠ market.store.contents ↔
        ∃ action, called? = some action ∧
          market.store.contents.UnpaidSale market.store.limits market.store.ceiling market.funds caller
            action refusal next.store.contents)

/-- The action that a call by name asks for, if it asks for any. -/
def calledAction? (method arguments : Value) : Option Action :=
  match invoke.named? method, arguments with
  | some named, .list given => Action.ofArguments? named given
  | _, _ => none

theorem leavesUnpaidSaleOnly_act [Currency.Reliable σ] (caller : AccountId) (action : Action)
    {market : Market σ} {journal : Journal} (hj : market.store.journal = some journal)
    (hnodup : journal.slots.Nodup) :
    LeavesUnpaidSaleOnly caller (some action) (act caller action) market := by
  intro refusal next hr
  have hp : perform caller action market = .error (.refused refusal) next := by
    unfold act at hr
    rw [transaction_of_open (show (HasStore.store market).journal = some journal from hj)] at hr
    cases hp : perform caller action market with
    | ok receipt final =>
      rw [hp] at hr
      cases hr
    | error fault final =>
      rw [hp] at hr
      cases fault <;> cases hr
      rfl
  obtain ⟨hclosed, hundone⟩ := perform_of_open hj hnodup hp
  have hclean := failsClean_perform caller action market
  rw [hp] at hclean
  refine ⟨hclean, hundone, ?_⟩
  have hleaves : Leaves market.store.limits market.store.ceiling market.store.contents market.funds
      caller action refusal next.store.contents := refusedWith_perform action refusal (closed next) hclosed
  constructor
  · intro hne
    rcases hleaves with hsame | hsale
    · exact absurd hsame hne
    · exact ⟨action, rfl, hsale⟩
  · rintro ⟨_, -, _, _, hdoes, hpayment, -⟩
    exact hdoes.ne_of_payment hpayment

/-- **Inside an open transaction, a refused call keeps nothing but a sale that was not paid for.** The
transaction of the call is a part of the open one, so what the call has written is not taken back. All the
same there is only one refusal after something has been written, which is that of the payment for the very
sale that was called. -/
theorem refused_call_keeps_unpaid_sale_only [Currency.Reliable σ] {market : Market σ}
    {journal : Journal} (hj : market.store.journal = some journal) (hnodup : journal.slots.Nodup) :
    (∀ caller action, LeavesUnpaidSaleOnly caller (some action) (act caller action) market) ∧
      ∀ method arguments caller,
        LeavesUnpaidSaleOnly caller (calledAction? method arguments) (invoke method arguments caller)
          market := by
  constructor
  · intro caller action
    exact leavesUnpaidSaleOnly_act caller action hj hnodup
  · intro method arguments caller
    -- A call that does not come to an action has written nothing.
    have hstop (refusal : Refusal) :
        LeavesUnpaidSaleOnly caller none (pure (.refused refusal)) market := by
      intro _ next hr
      cases hr
      refine ⟨AgreesOutside.refl market, rfl, ?_⟩
      constructor
      · intro hne
        exact absurd rfl hne
      · rintro ⟨_, hcalled, -⟩
        cases hcalled
    unfold invoke calledAction?
    cases invoke.named? method with
    | none => exact hstop _
    | some named =>
      cases arguments with
      | list given =>
        dsimp only
        cases Action.ofArguments? named given with
        | none => exact hstop _
        | some action => exact leavesUnpaidSaleOnly_act caller action hj hnodup
      | _ => exact hstop _

/-- The cautious market with a transaction open. -/
def cautiousOpen : Market CautiousBank := { cautious with store := cautious.store.begin }

theorem refused_call_keeps_unpaid_sale_only_cautious :
    cautiousOpen.store.journal = some [] ∧ (Journal.slots []).Nodup ∧
      ∃ next, act (.number 2) (.launchBuy (.int 1) (.int 10)) cautiousOpen =
          .ok (.refused (.paymentFailed 10 (.number 2) (.number 1))) next ∧
        cautious.store.contents.UnpaidSale cautious.store.limits cautious.store.ceiling cautious.funds
          (.number 2) (.launchBuy (.int 1) (.int 10)) (.paymentFailed 10 (.number 2) (.number 1))
            next.store.contents := by
  have hj : cautiousOpen.store.journal = some [] := rfl
  have hnodup : (Journal.slots []).Nodup := List.nodup_nil
  have hr : ∃ next, act (.number 2) (.launchBuy (.int 1) (.int 10)) cautiousOpen =
      .ok (.refused (.paymentFailed 10 (.number 2) (.number 1))) next ∧
        next.store.contents ≠ cautiousOpen.store.contents := ⟨_, rfl, by decide +kernel⟩
  obtain ⟨next, hr, hne⟩ := hr
  have h := (refused_call_keeps_unpaid_sale_only hj hnodup).1 _ _ _ next hr
  obtain ⟨_, hcalled, hsale⟩ := h.2.2.1 hne
  cases hcalled
  exact ⟨hj, hnodup, next, hr, hsale⟩

/-- A call for a token for 10, which the cautious bank will not pay. The call is refused, and the token is
there, in the transaction and after it. -/
theorem unpaid_sale_is_kept :
    ∃ next, act (.number 2) (.launchBuy (.int 1) (.int 10)) cautiousOpen =
        .ok (.refused (.paymentFailed 10 (.number 2) (.number 1))) next ∧
      next.store.contents ≠ cautiousOpen.store.contents ∧ next.funds = cautiousOpen.funds ∧
        ∃ final, transaction (act (.number 2) (.launchBuy (.int 1) (.int 10))) cautious =
            .ok (.refused (.paymentFailed 10 (.number 2) (.number 1))) final ∧
          final.store.journal = none ∧ final.funds = cautious.funds ∧
            cautious.store.contents.tokens[(1 : ItemId)]? = none ∧
              (final.store.contents.tokens[(1 : ItemId)]?).map Token.owner = some (.number 2) :=
  ⟨_, rfl, by decide +kernel, rfl, _, rfl, rfl, rfl, rfl, rfl⟩

end Market

end EditionMarket
