import EditionMarket.Account

/-!
# Currencies and banks

A market has its payments made by a currency. All that it knows of a currency is how to ask for a
balance, how to ask whether an account can afford an amount, and how to have an amount paid.

A bank is a currency that keeps a balance for every account. An account that was never opened has nothing.
A payment that keeps the payer alive has to leave the deposit on the payer's account; other payments may
empty it.
-/

namespace EditionMarket

/-- What a market needs of funds. Every answer may also change them. -/
class Currency (σ : Type) where
  /-- The balance of an account. -/
  balance : AccountId → StateM σ Int
  /-- Whether an account can afford an amount and still stay open. -/
  canAfford : AccountId → Int → StateM σ Bool
  /-- Pays an amount from one account to another, if the payer stays open. Tells whether it was
  paid. -/
  pay : AccountId → AccountId → Int → StateM σ Bool

/-- Balances, and the deposit that keeps an account alive. -/
structure Bank where
  deposit : Nat := 0
  balances : Table AccountId Int := ∅
deriving DecidableEq

namespace Bank

/-- An amount that may not be negative. -/
inductive Fault
  | negativeDeposit (amount : Int)
  | negativeStart (amount : Int)
  | negativeCredit (amount : Int)
deriving DecidableEq

/-- The message of a fault. -/
def Fault.message : Fault → String
  | negativeDeposit amount => s!"existential_deposit must be >= 0, got {amount}"
  | negativeStart amount => s!"starting_balance must be >= 0, got {amount}"
  | negativeCredit amount => s!"credit amount must be >= 0, got {amount}"

/-- A bank without accounts. -/
def ofDeposit (deposit : Int) : Except Fault Bank :=
  if deposit < 0 then .error (.negativeDeposit deposit) else .ok { deposit := deposit.toNat }

/-- The balance of an account. -/
def balance (bank : Bank) (account : AccountId) : Int := (bank.balances[account]?).getD 0

/-- The bank with another balance for an account. -/
def setBalance (bank : Bank) (account : AccountId) (balance : Int) : Bank :=
  { bank with balances := bank.balances.put account balance }

/-- Opens an account with a starting balance, in place of what it had. -/
def start (bank : Bank) (account : AccountId) (balance : Int) : Except Fault Bank :=
  if balance < 0 then .error (.negativeStart balance) else .ok (bank.setBalance account balance)

/-- Adds funds to an account. -/
def credit (bank : Bank) (account : AccountId) (amount : Int) : Except Fault Bank :=
  if amount < 0 then .error (.negativeCredit amount)
  else .ok (bank.setBalance account (bank.balance account + amount))

/-- What has to be left on the payer's account. -/
def floor (bank : Bank) (keepAlive : Bool) : Int := if keepAlive then bank.deposit else 0

/-- Whether an account can pay an amount. Nothing can always be paid, and less than nothing never. -/
def canAfford (bank : Bank) (account : AccountId) (amount : Int) (keepAlive : Bool) : Bool :=
  amount = 0 ∨ 0 < amount ∧ bank.floor keepAlive ≤ bank.balance account - amount

/-- Pays an amount from one account to another; none if the payer cannot afford it. -/
def pay? (bank : Bank) (payer payee : AccountId) (amount : Int) (keepAlive : Bool) : Option Bank :=
  if bank.canAfford payer amount keepAlive then
    if amount = 0 ∨ payer = payee then some bank
    else
      let charged := bank.setBalance payer (bank.balance payer - amount)
      some (charged.setBalance payee (charged.balance payee + amount))
  else none

/-- The balances of all accounts, in the order of the accounts. -/
def toValue (bank : Bank) : Value :=
  .list (bank.balances.entries.map fun (account, balance) =>
    .list [account.toValue, .int balance])

/-! ## Balances -/

/-- An account has the balance that was set, and every other the one it had. -/
theorem balance_setBalance (bank : Bank) (account other : AccountId) (balance : Int) :
    (bank.setBalance account balance).balance other =
      if account = other then balance else bank.balance other := by
  unfold Bank.balance setBalance
  rw [Table.getElem?_put]
  split <;> rfl

/-- A payment succeeds exactly if it can be afforded. -/
theorem isSome_pay? (bank : Bank) (payer payee : AccountId) (amount : Int) (keepAlive : Bool) :
    (bank.pay? payer payee amount keepAlive).isSome = bank.canAfford payer amount keepAlive := by
  unfold pay?
  split
  case isTrue h => split <;> simp [h]
  case isFalse h => simp [h]

/-! ## The currency of a bank -/

instance : Currency Bank where
  balance account := do return (← get).balance account
  canAfford account amount := do return (← get).canAfford account amount true
  pay payer payee amount := do
    match (← get).pay? payer payee amount true with
    | none => return false
    | some bank =>
      set bank
      return true

end Bank

/-! ## Cautious banks -/

/-- A bank that makes no payment above its ceiling, although it will not say so when asked whether the
payer can afford it. -/
structure CautiousBank where
  bank : Bank := {}
  ceiling : Option Int := none
deriving DecidableEq

namespace CautiousBank

/-- Pays an amount, if it is not above the ceiling and the payer can afford it. -/
def pay? (cautious : CautiousBank) (payer payee : AccountId) (amount : Int) (keepAlive : Bool) :
    Option CautiousBank :=
  if cautious.ceiling.any (· < amount) then none
  else (cautious.bank.pay? payer payee amount keepAlive).map ({ cautious with bank := · })

instance : Currency CautiousBank where
  balance account := do return (← get).bank.balance account
  canAfford account amount := do return (← get).bank.canAfford account amount true
  pay payer payee amount := do
    match (← get).pay? payer payee amount true with
    | none => return false
    | some next =>
      set next
      return true

end CautiousBank

end EditionMarket
