import EditionMarket.Bank
import EditionMarket.Proofs.Table

/-!
# What a payment does

A bank that makes a payment takes an amount from one account and gives it to another, and that is all. The
payer is left with the deposit, unless there was nothing to pay.

Main statements: `Moves.of_pay?` and `Pays.of_pay?`, what a payment that is made does and what it does not,
and `Moves.le_balance`, what it leaves to the payer.
-/

namespace EditionMarket.Bank

variable {before after : Bank} {payer payee account : AccountId} {amount : Int}

/-! ## The total -/

/-- The sum of all balances. -/
def total (bank : Bank) : Int := bank.balances.sum

theorem total_setBalance (bank : Bank) (account : AccountId) (balance : Int) :
    (bank.setBalance account balance).total = bank.total - bank.balance account + balance :=
  Table.sum_put bank.balances account balance

/-! ## Payments -/

/-- An amount has gone from one account to another: the balances show it, and nothing else has changed. The
amount was not negative, and unless it was zero the payer could spare it. -/
structure Moves (before after : Bank) (payer payee : AccountId) (amount : Int) : Prop where
  deposit_eq : after.deposit = before.deposit
  balance_eq : ∀ account, after.balance account = before.balance account +
    (if payee = account then amount else 0) - (if payer = account then amount else 0)
  total_eq : after.total = before.total
  amount_nonneg : 0 ≤ amount
  deposit_le_payer : amount = 0 ∨ before.deposit ≤ before.balance payer - amount

/-- A payment that is made moves the amount. -/
theorem Moves.of_pay? (h : before.pay? payer payee amount true = some after) :
    Moves before after payer payee amount := by
  unfold pay? at h
  split at h
  case isFalse => cases h
  case isTrue hcan =>
    -- With `keepAlive` what has to be left is the deposit.
    have hcan : amount = 0 ∨ 0 < amount ∧ before.deposit ≤ before.balance payer - amount :=
      of_decide_eq_true hcan
    have hnonneg : 0 ≤ amount := by omega
    have hdeposit : amount = 0 ∨ (before.deposit : Int) ≤ before.balance payer - amount := by omega
    split at h
    -- Nothing is paid, or the account pays itself.
    case isTrue hsame =>
      cases h
      refine ⟨rfl, fun account => ?_, rfl, hnonneg, hdeposit⟩
      rcases hsame with rfl | rfl
      · simp
      · omega
    case isFalse hmoves =>
      rw [not_or] at hmoves
      cases h
      -- The payee has been credited after the payer was charged, on a balance of its own.
      have hpayee : (before.setBalance payer (before.balance payer - amount)).balance payee =
          before.balance payee := by
        rw [balance_setBalance, if_neg hmoves.2]
      refine ⟨rfl, fun account => ?_, ?_, hnonneg, hdeposit⟩
      · rw [balance_setBalance, hpayee, balance_setBalance]
        grind
      · rw [total_setBalance, total_setBalance, hpayee]
        omega

/-- Nothing can always be paid, and paying it changes nothing. -/
theorem pay?_zero (bank : Bank) (payer payee : AccountId) :
    bank.pay? payer payee 0 true = some bank := by
  simp [pay?, canAfford]

namespace Moves

/-- What an account holds of the deposit it keeps: a payer that has something to pay is left with all of
it. -/
theorem le_balance (h : Moves before after payer payee amount) {least : Int}
    (hleast : least ≤ before.deposit) (hb : least ≤ before.balance account) :
    least ≤ after.balance account := by
  have hamount := h.amount_nonneg
  have hpayer := h.deposit_le_payer
  rw [h.balance_eq]
  by_cases hp : payer = account
  · subst hp
    split <;> split <;> omega
  · rw [if_neg hp]
    split <;> omega

end Moves

/-- What a payment that is made leaves. -/
theorem eq_of_pay? {keepAlive : Bool} (h : before.pay? payer payee amount keepAlive = some after) :
    after =
      if amount = 0 ∨ payer = payee then before
      else
        let charged := before.setBalance payer (before.balance payer - amount)
        charged.setBalance payee (charged.balance payee + amount) := by
  unfold pay? at h
  split at h
  case isFalse => cases h
  case isTrue =>
    split at h
    case isTrue hstays =>
      rw [if_pos hstays, Option.some.inj h]
    case isFalse hmoves =>
      rw [if_neg hmoves, ← Option.some.inj h]

/-- An amount has been paid, and that is all: the balances of third parties stand as they stood, and if there
was nothing to pay, or the payer was to pay itself, all balances do. -/
structure Pays (before after : Bank) (payer payee : AccountId) (amount : Int) : Prop
    extends Moves before after payer payee amount where
  others_eq : ∀ account, account ≠ payer → account ≠ payee →
    after.balances[account]? = before.balances[account]?
  eq_of_stays : amount = 0 ∨ payer = payee → after = before

theorem Pays.of_pay? (h : before.pay? payer payee amount true = some after) :
    Pays before after payer payee amount := by
  have hafter := eq_of_pay? h
  refine ⟨.of_pay? h, fun account hpayer hpayee => ?_, fun hstays => ?_⟩
  · rw [hafter]
    split
    · rfl
    · show ((before.balances.put payer _).put payee _)[account]? = _
      rw [Table.getElem?_put, if_neg (Ne.symm hpayee), Table.getElem?_put, if_neg (Ne.symm hpayer)]
  · rw [hafter, if_pos hstays]

/-! ## The currency of a bank -/

theorem run_canAfford (bank : Bank) (account : AccountId) (amount : Int) :
    (Currency.canAfford account amount).run bank = (bank.canAfford account amount true, bank) := rfl

theorem run_pay (bank : Bank) (payer payee : AccountId) (amount : Int) :
    (Currency.pay payer payee amount).run bank =
      match bank.pay? payer payee amount true with
      | none => (false, bank)
      | some paid => (true, paid) := by
  cases h : bank.pay? payer payee amount true with
  | none =>
    simp only [Currency.pay, StateT.run_bind, StateT.run_get, pure_bind, h]
    rfl
  | some paid =>
    simp only [Currency.pay, StateT.run_bind, StateT.run_get, pure_bind, h]
    rfl

end EditionMarket.Bank
