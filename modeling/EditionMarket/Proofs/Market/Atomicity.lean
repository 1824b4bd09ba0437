import EditionMarket.Proofs.Market.Payment
import EditionMarket.Proofs.Market.Recorded

/-!
# Actions are all or nothing

Funds are not part of the store, and no transaction gives them back. An action nevertheless leaves them as
they were unless it is completed, because it has its payment made last: all that can still fail then is
the payment, and a payment that fails moves nothing.

Main statement: `allOrNothing`, a call that is not completed leaves the whole market as it was.
-/

namespace EditionMarket

namespace Market

variable {σ α β : Type}

/-! ## Programs that change the store only -/

/-- Two markets agree outside of their stores. -/
def AgreesOutside (first second : Market σ) : Prop := { first with store := second.store } = second

theorem AgreesOutside.refl (market : Market σ) : market.AgreesOutside market := rfl

theorem AgreesOutside.trans {first second third : Market σ} (h₁ : first.AgreesOutside second)
    (h₂ : second.AgreesOutside third) : first.AgreesOutside third := by
  unfold AgreesOutside at *
  rw [← h₂, ← h₁]

/-- However it ends, the program has changed the store at most. -/
def StoreOnly (program : MarketM σ α) : Prop :=
  ∀ market : Market σ, match program market with
    | .ok _ next => next.AgreesOutside market
    | .error _ next => next.AgreesOutside market

/-- If it fails, the program has changed the store at most. -/
def FailsClean (program : MarketM σ α) : Prop :=
  ∀ market : Market σ, match program market with
    | .ok _ _ => True
    | .error _ next => next.AgreesOutside market

theorem StoreOnly.failsClean {program : MarketM σ α} (h : StoreOnly program) :
    FailsClean program := by
  intro market
  have hm := h market
  cases hr : program market with
  | ok value next => trivial
  | error fault next =>
    rw [hr] at hm
    exact hm

theorem StoreOnly.onStore (program : StoreM α) : StoreOnly (liftM program : MarketM σ α) := by
  intro market
  rw [liftM_eq_onStore]
  unfold Market.onStore
  cases program market.store with
  | ok value store => exact AgreesOutside.refl market
  | error fault store => exact AgreesOutside.refl market

theorem StoreOnly.pure (value : α) : StoreOnly (Pure.pure value : MarketM σ α) :=
  fun market => AgreesOutside.refl market

/-- A program on the funds that leaves them alone. -/
theorem StoreOnly.onFunds {program : StateM σ α} (h : ∀ funds, (program.run funds).2 = funds) :
    StoreOnly (Market.onFunds program) := by
  intro market
  show ({ market with funds := (program.run market.funds).2 } : Market σ).AgreesOutside market
  rw [h]
  exact AgreesOutside.refl market

/-- As long as only the store is changed, whatever follows is responsible for itself. -/
theorem StoreOnly.bind {first : MarketM σ α} {second : α → MarketM σ β} (hfirst : StoreOnly first)
    (hsecond : ∀ value, StoreOnly (second value)) : StoreOnly (first >>= second) := by
  intro market
  have h₁ := hfirst market
  cases hr : first market with
  | error fault next =>
    rw [hr] at h₁
    rw [Program.bind_of_error hr]
    exact h₁
  | ok value middle =>
    rw [hr] at h₁
    rw [Program.bind_of_ok hr]
    have h₂ := hsecond value middle
    cases hr₂ : second value middle with
    | ok result next =>
      rw [hr₂] at h₂
      exact h₂.trans h₁
    | error fault next =>
      rw [hr₂] at h₂
      exact h₂.trans h₁

/-- As long as only the store is changed, a failure of what follows is clean if it is by itself. -/
theorem StoreOnly.bind_failsClean {first : MarketM σ α} {second : α → MarketM σ β}
    (hfirst : StoreOnly first) (hsecond : ∀ value, FailsClean (second value)) :
    FailsClean (first >>= second) := by
  intro market
  have h₁ := hfirst market
  cases hr : first market with
  | error fault next =>
    rw [hr] at h₁
    rw [Program.bind_of_error hr]
    exact h₁
  | ok value middle =>
    rw [hr] at h₁
    rw [Program.bind_of_ok hr]
    have h₂ := hsecond value middle
    cases hr₂ : second value middle with
    | ok result next => trivial
    | error fault next =>
      rw [hr₂] at h₂
      exact h₂.trans h₁

theorem FailsClean.ite {c : Prop} [Decidable c] {yes no : MarketM σ α} (hyes : FailsClean yes)
    (hno : FailsClean no) : FailsClean (if c then yes else no) := by
  split
  · exact hyes
  · exact hno

/-! ## Actions fail clean -/

variable [Currency σ] [Currency.Reliable σ]

theorem storeOnly_ensureCanPay (payer : AccountId) (amount : Int) :
    StoreOnly (ensureCanPay payer amount : MarketM σ Unit) := by
  refine (StoreOnly.onFunds (Currency.Reliable.funds_canAfford payer amount)).bind fun can => ?_
  split
  · refine (StoreOnly.onFunds (Currency.Reliable.funds_balance payer)).bind fun balance => ?_
    exact StoreOnly.onStore _
  · exact StoreOnly.pure _

/-- A payment that is not made is clean, and nothing can fail after one that is made. -/
theorem failsClean_pay_bind (payer payee : AccountId) (amount : Int) (receipt : Receipt) :
    FailsClean (do pay payer payee amount; return receipt : MarketM σ Receipt) := by
  intro market
  -- What the currency says of the payment decides how the program ends.
  have hpay := Currency.Reliable.funds_pay payer payee amount market.funds
  cases hr : ((Currency.pay payer payee amount).run market.funds).1 with
  | true =>
    have hok : ∃ next, pay payer payee amount market = .ok () next := by
      rw [pay_eq]
      simp only [hr, if_true]
      exact ⟨_, rfl⟩
    obtain ⟨next, hok⟩ := hok
    rw [Program.bind_of_ok hok]
    trivial
  | false =>
    have herror : pay payer payee amount market =
        .error (.refused (.paymentFailed amount payer payee)) market := by
      rw [pay_eq]
      simp only [hr, hpay hr]
      rfl
    rw [Program.bind_of_error herror]
    exact AgreesOutside.refl market

theorem failsClean_launchBuy (caller : AccountId) (edition bid : Value) :
    FailsClean (launchBuy caller edition bid : MarketM σ Receipt) := by
  -- Up to the payment everything is work on the store or a question to the currency.
  refine (StoreOnly.onStore _).bind_failsClean fun edition => ?_
  refine (StoreOnly.onStore _).bind_failsClean fun bid => ?_
  refine (StoreOnly.onStore _).bind_failsClean fun record => ?_
  refine (StoreOnly.onStore _).bind_failsClean fun seller => ?_
  -- A check that stops is followed by the rest of the program like one that does not.
  refine FailsClean.ite ((StoreOnly.onStore _).bind_failsClean fun _ => ?_) ?_ <;>
  · refine FailsClean.ite ((StoreOnly.onStore _).bind_failsClean fun _ => ?_) ?_ <;>
    · refine (storeOnly_ensureCanPay caller bid).bind_failsClean fun _ => ?_
      refine (StoreOnly.onStore _).bind_failsClean fun token => ?_
      exact failsClean_pay_bind caller seller bid _

theorem failsClean_buy (caller : AccountId) (token bid : Value) :
    FailsClean (buy caller token bid : MarketM σ Receipt) := by
  refine (StoreOnly.onStore _).bind_failsClean fun token => ?_
  refine (StoreOnly.onStore _).bind_failsClean fun bid => ?_
  refine (StoreOnly.onStore _).bind_failsClean fun record => ?_
  split
  · exact (StoreOnly.onStore _).failsClean
  refine FailsClean.ite ((StoreOnly.onStore _).bind_failsClean fun _ => ?_) ?_ <;>
  · refine FailsClean.ite ((StoreOnly.onStore _).bind_failsClean fun _ => ?_) ?_ <;>
    · refine (storeOnly_ensureCanPay caller bid).bind_failsClean fun _ => ?_
      refine (StoreOnly.onStore _).bind_failsClean fun _ => ?_
      refine (StoreOnly.onStore _).bind_failsClean fun _ => ?_
      exact failsClean_pay_bind caller record.owner bid _

/-- Every action that fails has changed the store at most. -/
theorem failsClean_perform (caller : AccountId) (action : Action) :
    FailsClean (perform caller action : MarketM σ Receipt) := by
  cases action with
  | launchBuy edition bid => exact failsClean_launchBuy caller edition bid
  | buy token bid => exact failsClean_buy caller token bid
  | _ => exact (StoreOnly.onStore _).failsClean

/-! ## Calls are all or nothing -/

/-- The program leaves this market exactly as it is, unless it answers that it is done. -/
def AllOrNothing (program : MarketM σ Answer) (market : Market σ) : Prop :=
  match program market with
  | .ok (.done _) _ => True
  | .ok (.refused _) next => next = market
  | .error _ next => next = market

/-- An action whose transaction is undone leaves nothing behind, as the store is all that it can have
changed. -/
theorem allOrNothing_act (caller : AccountId) (action : Action) {market : Market σ}
    (hn : market.store.journal = none) : AllOrNothing (act caller action) market := by
  have hclean := failsClean_perform caller action market
  unfold AllOrNothing
  -- `act_eq` gives back the store after a fault, and `hclean` says that there is nothing else.
  rw [act_eq caller action hn]
  cases hp : perform caller action market with
  | ok receipt next => trivial
  | error fault next =>
    rw [hp] at hclean
    cases fault <;> exact hclean

/-- **Calls are all or nothing.** Where no transaction is open, a call that is answered by anything else
than a receipt leaves the market exactly as it was: every record, every roster with the order of its
items, both counters, the funds and the events. It does not matter whether an action is called by itself
or by the name of its method and whatever arguments. -/
theorem allOrNothing {market : Market σ} (hn : market.store.journal = none) :
    (∀ caller action, AllOrNothing (act caller action) market) ∧
      ∀ method arguments caller, AllOrNothing (invoke method arguments caller) market := by
  constructor
  · intro caller action
    exact allOrNothing_act caller action hn
  -- A method that does not exist, or that cannot take the arguments, is refused before it begins.
  · intro method arguments caller
    unfold invoke
    cases invoke.named? method with
    | none => exact rfl
    | some named =>
      cases arguments with
      | list given =>
        dsimp only
        cases Action.ofArguments? named given with
        | none => exact rfl
        | some action => exact allOrNothing_act caller action hn
      | _ => exact rfl

/-- A market whose bank makes no payment above 5, with an edition for 10 that an account can afford. -/
def cautious : Market CautiousBank where
  store :=
    { contents :=
        { creators := (∅ : Table CreatorId Creator).put "studio" ⟨"studio", .number 1⟩
          editions := (∅ : Table ItemId Edition).put 1
            { id := 1, creator := "studio", name := "", price := 10, mimeType := "", uri := "",
              supply := 3 }
          lastEdition := 1 } }
  funds := { bank := { balances := (∅ : Table AccountId Int).put (.number 2) 100 }, ceiling := some 5 }
  events := { time := "" }

theorem allOrNothing_cautious :
    cautious.store.journal = none ∧
      ∃ next, act (.number 2) (.launchBuy (.int 1) (.int 10)) cautious =
        .ok (.refused (.paymentFailed 10 (.number 2) (.number 1))) next ∧ next = cautious := by
  have hn : cautious.store.journal = none := rfl
  have h := (allOrNothing hn).1 (.number 2) (.launchBuy (.int 1) (.int 10))
  have hr : ∃ next, act (.number 2) (.launchBuy (.int 1) (.int 10)) cautious =
      .ok (.refused (.paymentFailed 10 (.number 2) (.number 1))) next := ⟨_, by rfl⟩
  obtain ⟨next, hr⟩ := hr
  unfold AllOrNothing at h
  rw [hr] at h
  exact ⟨hn, next, hr, h⟩

end Market

end EditionMarket
