import EditionMarket.Proofs.Bank
import EditionMarket.Proofs.Program

/-!
# Banks account for every unit

Accounts are opened, credited and charged in any order and with any amounts, and most of that may be refused.
A balance changes only as it was asked to, nobody ever owes anything, and the sum of all balances shows what
was brought in and nothing else. Payments that need not keep the payer alive are payments like all others
here, but for the deposit.

Main definitions: `Call`, `Sets` and `Shifts`. Main statements: `sets_setBalance` and `shifts_of_pay?`, what
one call does; `Solvent.after`, what every call keeps; and `banks_account_for_every_unit`.
-/

namespace EditionMarket.Bank

/-! ## Calls -/

/-- What is asked of a bank. -/
inductive Call
  /-- Open an account with a starting balance. -/
  | start (account : AccountId) (balance : Int)
  /-- Add funds to an account. -/
  | credit (account : AccountId) (amount : Int)
  /-- Pay an amount from one account to another. -/
  | pay (payer payee : AccountId) (amount : Int) (keepAlive : Bool)

/-- Makes a change to a bank, unless there is a fault with it. -/
def attempt (change : Bank → Except Fault Bank) : EStateM Fault Bank Bool := do
  match change (← get) with
  | .ok next =>
    set next
    return true
  | .error fault => throw fault

/-- Does what a call asks for. A payment that the payer cannot afford is not made, but it is no fault. -/
def Call.perform : Call → EStateM Fault Bank Bool
  | start account balance => attempt (·.start account balance)
  | credit account amount => attempt (·.credit account amount)
  | pay payer payee amount keepAlive => do
    match (← get).pay? payer payee amount keepAlive with
    | some next =>
      set next
      return true
    | none => return false

/-- The bank after a call, whether there was a fault or not. -/
def after (bank : Bank) (call : Call) : Bank :=
  match call.perform bank with
  | .ok _ next => next
  | .error _ next => next

/-- The bank after a series of calls. -/
def run (bank : Bank) (calls : List Call) : Bank := calls.foldl after bank

variable {bank next : Bank} {payer payee account : AccountId} {amount balance : Int} {keepAlive : Bool}

/-! ## How calls end -/

/-- What is at fault leaves the bank as it was. -/
theorem attempt_eq (change : Bank → Except Fault Bank) (bank : Bank) :
    attempt change bank =
      match change bank with
      | .ok next => .ok true next
      | .error fault => .error fault bank := by
  have hget : (MonadState.get : EStateM Fault Bank Bank) bank = .ok bank bank := rfl
  unfold attempt
  rw [Program.bind_of_ok hget]
  cases change bank <;> rfl

theorem perform_start (bank : Bank) (account : AccountId) (balance : Int) :
    (Call.start account balance).perform bank =
      if balance < 0 then .error (.negativeStart balance) bank
      else .ok true (bank.setBalance account balance) := by
  dsimp only [Call.perform]
  rw [attempt_eq, Bank.start]
  by_cases h : balance < 0
  · rw [if_pos h, if_pos h]
  · rw [if_neg h, if_neg h]

theorem perform_credit (bank : Bank) (account : AccountId) (amount : Int) :
    (Call.credit account amount).perform bank =
      if amount < 0 then .error (.negativeCredit amount) bank
      else .ok true (bank.setBalance account (bank.balance account + amount)) := by
  dsimp only [Call.perform]
  rw [attempt_eq, Bank.credit]
  by_cases h : amount < 0
  · rw [if_pos h, if_pos h]
  · rw [if_neg h, if_neg h]

/-- A payment is made exactly if it can be afforded. -/
theorem perform_pay (bank : Bank) (payer payee : AccountId) (amount : Int) (keepAlive : Bool) :
    (Call.pay payer payee amount keepAlive).perform bank =
      .ok (bank.canAfford payer amount keepAlive)
        ((bank.pay? payer payee amount keepAlive).getD bank) := by
  have hget : (MonadState.get : EStateM Fault Bank Bank) bank = .ok bank bank := rfl
  dsimp only [Call.perform]
  rw [Program.bind_of_ok hget, ← isSome_pay? bank payer payee]
  cases bank.pay? payer payee amount keepAlive <;> rfl

/-- No fault changes anything. -/
theorem eq_of_perform_error {call : Call} {fault : Fault} {final : Bank}
    (h : call.perform bank = .error fault final) : final = bank := by
  cases call with
  | start account balance =>
    rw [perform_start] at h
    split at h <;> cases h
    rfl
  | credit account amount =>
    rw [perform_credit] at h
    split at h <;> cases h
    rfl
  | pay payer payee amount keepAlive =>
    rw [perform_pay] at h
    cases h

/-! ## What calls change -/

/-- An account has another balance, and that is all. -/
structure Sets (before after : Bank) (account : AccountId) (balance : Int) : Prop where
  deposit_eq : after.deposit = before.deposit
  entry_eq : ∀ other, after.balances[other]? =
    if other = account then some balance else before.balances[other]?
  total_eq : after.total = before.total + balance - before.balance account

/-- An amount has gone from one account to another one, and that is all. -/
structure Shifts (before after : Bank) (payer payee : AccountId) (amount : Int) : Prop where
  deposit_eq : after.deposit = before.deposit
  payer_eq : after.balances[payer]? = some (before.balance payer - amount)
  payee_eq : after.balances[payee]? = some (before.balance payee + amount)
  others_eq : ∀ other, other ≠ payer → other ≠ payee →
    after.balances[other]? = before.balances[other]?

theorem sets_setBalance (bank : Bank) (account : AccountId) (balance : Int) :
    Sets bank (bank.setBalance account balance) account balance := by
  refine ⟨rfl, fun other => ?_, ?_⟩
  · show (bank.balances.put account balance)[other]? = _
    rw [Table.getElem?_put]
    simp only [eq_comm]
  · rw [total_setBalance]
    omega

/-- A payment to somebody else takes from the payer what it gives to the payee. -/
theorem shifts_of_pay? (h : bank.pay? payer payee amount keepAlive = some next)
    (hamount : amount ≠ 0) (hother : payer ≠ payee) : Shifts bank next payer payee amount := by
  have hnext := eq_of_pay? h
  rw [if_neg (not_or.2 ⟨hamount, hother⟩)] at hnext
  dsimp only at hnext
  have hcharged := sets_setBalance bank payer (bank.balance payer - amount)
  -- The payer has been charged, which leaves the payee's balance as it was.
  rw [balance_setBalance, if_neg hother] at hnext
  have hpaid := sets_setBalance (bank.setBalance payer (bank.balance payer - amount)) payee
    (bank.balance payee + amount)
  rw [← hnext] at hpaid
  refine ⟨hpaid.deposit_eq, ?_, ?_, fun other hpayer hpayee => ?_⟩
  · rw [hpaid.entry_eq, if_neg hother, hcharged.entry_eq, if_pos rfl]
  · rw [hpaid.entry_eq, if_pos rfl]
  · rw [hpaid.entry_eq, if_neg hpayee, hcharged.entry_eq, if_neg hpayer]

/-- No payment changes the total. -/
theorem total_of_pay? (h : bank.pay? payer payee amount keepAlive = some next) :
    next.total = bank.total := by
  rw [eq_of_pay? h]
  split
  · rfl
  · dsimp only
    rw [total_setBalance, total_setBalance]
    omega

/-! ## What calls keep -/

/-- The deposit is what it was when the bank was made, and nobody owes anything. -/
structure Solvent (deposit : Nat) (bank : Bank) : Prop where
  deposit_eq : bank.deposit = deposit
  nonneg : bank.balances.All fun _ balance => 0 ≤ balance

namespace Solvent

variable {deposit : Nat}

/-- Who has no account owes nothing either. -/
theorem balance_nonneg (h : Solvent deposit bank) (account : AccountId) : 0 ≤ bank.balance account := by
  unfold Bank.balance
  cases hentry : bank.balances[account]? with
  | none => exact Int.le_refl 0
  | some balance => exact h.nonneg account balance hentry

theorem setBalance (h : Solvent deposit bank) (hbalance : 0 ≤ balance) :
    Solvent deposit (bank.setBalance account balance) :=
  ⟨h.deposit_eq, h.nonneg.put hbalance⟩

theorem of_pay? (h : Solvent deposit bank) (hpay : bank.pay? payer payee amount keepAlive = some next) :
    Solvent deposit next := by
  rw [eq_of_pay? hpay]
  split
  · exact h
  · -- What is left to the payer is at least nothing, and the amount is not negative.
    have hcan : bank.canAfford payer amount keepAlive = true := by
      rw [← isSome_pay? bank payer payee, hpay]
      rfl
    have hcan : amount = 0 ∨ 0 < amount ∧ bank.floor keepAlive ≤ bank.balance payer - amount :=
      of_decide_eq_true hcan
    have hfloor : 0 ≤ bank.floor keepAlive := by
      unfold floor
      split <;> omega
    have hpayer := h.balance_nonneg payer
    have hcharged : Solvent deposit (bank.setBalance payer (bank.balance payer - amount)) :=
      h.setBalance (by omega)
    have hpayee := hcharged.balance_nonneg payee
    exact hcharged.setBalance (by omega)

/-- **Every call keeps a bank solvent.** -/
theorem after (h : Solvent deposit bank) (call : Call) : Solvent deposit (bank.after call) := by
  unfold Bank.after
  cases call with
  | start account balance =>
    rw [perform_start]
    by_cases hneg : balance < 0
    · rw [if_pos hneg]
      exact h
    · rw [if_neg hneg]
      exact h.setBalance (by omega)
  | credit account amount =>
    rw [perform_credit]
    by_cases hneg : amount < 0
    · rw [if_pos hneg]
      exact h
    · rw [if_neg hneg]
      have hbalance := h.balance_nonneg account
      exact h.setBalance (by omega)
  | pay payer payee amount keepAlive =>
    rw [perform_pay]
    cases hpay : bank.pay? payer payee amount keepAlive with
    | none => exact h
    | some next => exact h.of_pay? hpay

theorem run (h : Solvent deposit bank) (calls : List Call) : Solvent deposit (bank.run calls) := by
  induction calls generalizing bank with
  | nil => exact h
  | cons call rest ih => exact ih (h.after call)

/-- Where nobody has an account, nobody owes anything. -/
theorem new (deposit : Nat) : Solvent deposit { deposit := deposit } := ⟨rfl, .empty _⟩

end Solvent

/-! ## Every bank -/

/-- **Banks account for every unit.** Make a bank with whatever deposit, and let it be asked to open, to
credit and to pay, any number of times and with any accounts and amounts. No balance is ever negative. A
payment can be afforded, and is then made, exactly if there is nothing to pay, or if there is something to pay
and the payer is left with the deposit, or with nothing less than zero where it need not stay alive. A payment
that is not made, or of nothing, or to oneself, changes nothing; any other takes the amount from the payer,
gives it to the payee, and changes no third account; none changes the total. A credit adds to one account, and
to the total, what is credited, and an account that is opened has its starting balance in place of what it
had. An amount below nothing is a fault in both cases, and a fault changes nothing. -/
theorem banks_account_for_every_unit (deposit : Nat) (calls : List Call) :
    ofDeposit deposit = .ok { deposit := deposit } ∧
      let bank := ({ deposit := deposit } : Bank).run calls
      (∀ (account : AccountId) (balance : Int), bank.balances[account]? = some balance → 0 ≤ balance) ∧
      (∀ payer payee amount keepAlive, ∃ paid next,
        (Call.pay payer payee amount keepAlive).perform bank = .ok paid next ∧
          paid = bank.canAfford payer amount keepAlive ∧
          (paid = true ↔ amount = 0 ∨
            0 < amount ∧ (if keepAlive then (deposit : Int) else 0) ≤ bank.balance payer - amount) ∧
          (paid = false ∨ amount = 0 ∨ payer = payee → next = bank) ∧
          (paid = true → amount ≠ 0 → payer ≠ payee → Shifts bank next payer payee amount) ∧
          next.total = bank.total) ∧
      (∀ account amount,
        if amount < 0 then
          (Call.credit account amount).perform bank = .error (.negativeCredit amount) bank
        else ∃ next, (Call.credit account amount).perform bank = .ok true next ∧
          Sets bank next account (bank.balance account + amount) ∧ next.total = bank.total + amount) ∧
      (∀ account balance,
        if balance < 0 then
          (Call.start account balance).perform bank = .error (.negativeStart balance) bank
        else ∃ next, (Call.start account balance).perform bank = .ok true next ∧
          Sets bank next account balance ∧ next.total = bank.total + balance - bank.balance account) ∧
      ∀ (call : Call) fault final, call.perform bank = .error fault final → final = bank := by
  have hmade : ofDeposit deposit = .ok { deposit := deposit } := by
    unfold ofDeposit
    rw [if_neg (by omega)]
    rfl
  refine ⟨hmade, ?_⟩
  intro bank
  have hsolvent : Solvent deposit bank := (Solvent.new deposit).run calls
  refine ⟨hsolvent.nonneg, fun payer payee amount keepAlive => ?_, fun account amount => ?_,
    fun account balance => ?_, fun call fault final => eq_of_perform_error⟩
  · refine ⟨_, _, perform_pay bank payer payee amount keepAlive, rfl, ?_, ?_⟩
    · rw [← hsolvent.deposit_eq]
      exact decide_eq_true_iff
    · rw [← isSome_pay? bank payer payee]
      cases hpay : bank.pay? payer payee amount keepAlive with
      | none => exact ⟨fun _ => rfl, nofun, rfl⟩
      | some next =>
        refine ⟨fun hstays => ?_, fun _ => shifts_of_pay? hpay, total_of_pay? hpay⟩
        exact (eq_of_pay? hpay).trans (if_pos (hstays.resolve_left nofun))
  · rw [perform_credit]
    split
    case isTrue => rfl
    case isFalse =>
      have hsets := sets_setBalance bank account (bank.balance account + amount)
      exact ⟨_, rfl, hsets, by rw [hsets.total_eq]; omega⟩
  · rw [perform_start]
    split
    case isTrue => rfl
    case isFalse =>
      have hsets := sets_setBalance bank account balance
      exact ⟨_, rfl, hsets, hsets.total_eq⟩

/-- A payment that leaves exactly the deposit is made, one unit more is too much, and without the need to stay
alive all of it can be paid to oneself. -/
theorem banks_account_for_every_unit_lastUnit :
    let calls : List Call := [.start (.name "ann") 10, .credit (.name "bob") (-1), .credit (.number 7) 2]
    let bank := ({ deposit := 3 } : Bank).run calls
    bank.balance (.name "ann") = 10 ∧ bank.total = 12 ∧
      (∃ next, (Call.pay (.name "ann") (.name "bob") 7 true).perform bank = .ok true next ∧
        Shifts bank next (.name "ann") (.name "bob") 7 ∧ next.total = 12) ∧
      (Call.pay (.name "ann") (.name "bob") 8 true).perform bank = .ok false bank ∧
      (Call.pay (.name "ann") (.name "ann") 10 false).perform bank = .ok true bank := by
  intro calls bank
  have hann : bank.balance (.name "ann") = 10 := rfl
  have htotal : bank.total = 12 := rfl
  obtain ⟨-, -, hpay, -⟩ := banks_account_for_every_unit 3 calls
  refine ⟨hann, htotal, ?_, ?_, ?_⟩
  · obtain ⟨paid, next, hperform, -, hiff, -, hshifts, hsame⟩ := hpay (.name "ann") (.name "bob") 7 true
    have hpaid : paid = true := hiff.2 (.inr ⟨by decide, by rw [hann]; decide⟩)
    exact ⟨next, hpaid ▸ hperform, hshifts hpaid (by decide) (by decide), hsame.trans htotal⟩
  · obtain ⟨paid, next, hperform, -, hiff, hstays, -⟩ := hpay (.name "ann") (.name "bob") 8 true
    have hnot : paid = false := by
      rw [← Bool.not_eq_true, hiff, hann]
      decide
    rw [hperform, hnot, hstays (.inl hnot)]
  · obtain ⟨paid, next, hperform, -, hiff, hstays, -⟩ := hpay (.name "ann") (.name "ann") 10 false
    have hpaid : paid = true := hiff.2 (.inr ⟨by decide, by rw [hann]; decide⟩)
    rw [hperform, hpaid, hstays (.inr (.inr rfl))]

end EditionMarket.Bank
