import EditionMarket.Bank
import EditionMarket.Market
import EditionMarket.Proofs.Program

/-!
# Payments

What a market does with its funds: it asks whether an account can afford an amount, and has the amount
paid. This file says how these two programs end, and which currencies can be trusted to change the funds
by payments only.

Main statements: `ensureCanPay_eq` and `pay_eq`.
-/

namespace EditionMarket

/-! ## Reliable currencies -/

/-- A currency is reliable if asking for something leaves the funds alone, and so does a payment that is
not made. Nothing is said about which payments are made: one may fail although the payer can afford it. -/
class Currency.Reliable (σ : Type) [Currency σ] : Prop where
  funds_balance : ∀ (account : AccountId) (funds : σ),
    ((Currency.balance account).run funds).2 = funds
  funds_canAfford : ∀ (account : AccountId) (amount : Int) (funds : σ),
    ((Currency.canAfford account amount).run funds).2 = funds
  funds_pay : ∀ (payer payee : AccountId) (amount : Int) (funds : σ),
    ((Currency.pay payer payee amount).run funds).1 = false →
      ((Currency.pay payer payee amount).run funds).2 = funds

instance : Currency.Reliable Bank where
  funds_balance _ _ := rfl
  funds_canAfford _ _ _ := rfl
  funds_pay payer payee amount bank h := by
    cases hp : bank.pay? payer payee amount true with
    | none =>
      simp only [Currency.pay, StateT.run_bind, StateT.run_get, pure_bind, hp]
      rfl
    | some next => simp [Currency.pay, hp] at h

instance : Currency.Reliable CautiousBank where
  funds_balance _ _ := rfl
  funds_canAfford _ _ _ := rfl
  funds_pay payer payee amount cautious h := by
    cases hp : cautious.pay? payer payee amount true with
    | none =>
      simp only [Currency.pay, StateT.run_bind, StateT.run_get, pure_bind, hp]
      rfl
    | some next => simp [Currency.pay, hp] at h

namespace Market

variable {σ α : Type}

theorem onFunds_eq (program : StateM σ α) (market : Market σ) :
    onFunds program market =
      .ok (program.run market.funds).1 { market with funds := (program.run market.funds).2 } := rfl

variable [Currency σ]

/-- Whether the action goes on is up to what the currency says to the question whether the payer can
afford the amount. -/
theorem ensureCanPay_eq (payer : AccountId) (amount : Int) (market : Market σ) :
    ensureCanPay payer amount market =
      let can := (Currency.canAfford payer amount).run market.funds
      if can.1 then .ok () { market with funds := can.2 }
      else
        let balance := (Currency.balance payer).run can.2
        .error (.refused (.cannotAfford amount balance.1)) { market with funds := balance.2 } := by
  unfold ensureCanPay
  rw [Program.bind_of_ok (onFunds_eq _ market)]
  dsimp only
  cases ((Currency.canAfford payer amount).run market.funds).1 <;> rfl

/-- A payment fails if the currency says that it was not made. -/
theorem pay_eq (payer payee : AccountId) (amount : Int) (market : Market σ) :
    pay payer payee amount market =
      let paid := (Currency.pay payer payee amount).run market.funds
      if paid.1 then .ok () { market with funds := paid.2 }
      else .error (.refused (.paymentFailed amount payer payee)) { market with funds := paid.2 } := by
  unfold pay
  rw [Program.bind_of_ok (onFunds_eq _ market)]
  dsimp only
  cases ((Currency.pay payer payee amount).run market.funds).1 <;> rfl

variable {funds : σ} {store : Store} {events : EventLog} {methods : Method → MethodSettings}
  {next : Market σ} {u : Unit}

theorem ensureCanPay_eq_ok_iff {payer : AccountId} {amount : Int} :
    ensureCanPay payer amount ⟨store, funds, events, methods⟩ = .ok u next ↔
      ((Currency.canAfford payer amount).run funds).1 = true ∧
        next = ⟨store, ((Currency.canAfford payer amount).run funds).2, events, methods⟩ := by
  rw [ensureCanPay_eq]
  dsimp only
  cases ((Currency.canAfford payer amount).run funds).1 with
  | true =>
    rw [if_pos rfl, EStateM.Result.ok.injEq]
    simp only [true_and, eq_comm]
  | false => simp

theorem pay_eq_ok_iff {payer payee : AccountId} {amount : Int} :
    pay payer payee amount ⟨store, funds, events, methods⟩ = .ok u next ↔
      ∃ paid, (Currency.pay payer payee amount).run funds = (true, paid) ∧
        next = ⟨store, paid, events, methods⟩ := by
  rw [pay_eq]
  dsimp only
  obtain ⟨made, paid⟩ := (Currency.pay payer payee amount).run funds
  cases made with
  | true =>
    constructor
    · intro h
      cases h
      exact ⟨paid, rfl, rfl⟩
    · rintro ⟨_, h, rfl⟩
      cases h
      rfl
  | false =>
    constructor
    · intro h
      cases h
    · rintro ⟨_, h, -⟩
      cases h

end Market

end EditionMarket
