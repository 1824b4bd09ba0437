import EditionMarket.Proofs.Bank
import EditionMarket.Proofs.Market.Atomicity
import EditionMarket.Proofs.Market.Run

/-!
# Funds reconcile with sales

The funds of a market are changed by its sales and by nothing else. This file adds up what the receipts of a
run say that an account has sold for and bought for, and shows that the balances of a bank differ by exactly
that.

Main statements: `reconciles_run`, the books of a bank over a run, and `funds_reconcile`, what follows for
balances, for their total and for the deposit.
-/

namespace EditionMarket

/-! ## Payments so far -/

/-- What the sales were paid, one after the other. -/
def payments (past : List Receipt) : List Payment := past.filterMap Receipt.payment?

/-- What the sales with an account on one of their sides were paid. -/
def volume (side : Payment → AccountId) (account : AccountId) (past : List Receipt) : Int :=
  ((payments past).map fun payment => if side payment = account then payment.amount else 0).sum

/-- What an account has earned as a seller. -/
def earned (account : AccountId) (past : List Receipt) : Int := volume Payment.payee account past

/-- What an account has spent as a buyer. -/
def spent (account : AccountId) (past : List Receipt) : Int := volume Payment.payer account past

theorem volume_append (side : Payment → AccountId) (account : AccountId) (first second : List Receipt) :
    volume side account (first ++ second) = volume side account first + volume side account second := by
  unfold volume payments
  rw [List.filterMap_append, List.map_append, List.sum_append]

theorem volume_of_free (side : Payment → AccountId) (account : AccountId) {receipt : Receipt}
    (h : receipt.payment? = none) : volume side account [receipt] = 0 := by
  simp [volume, payments, h]

theorem volume_of_paid (side : Payment → AccountId) (account : AccountId) {receipt : Receipt}
    {payment : Payment} (h : receipt.payment? = some payment) :
    volume side account [receipt] = if side payment = account then payment.amount else 0 := by
  simp [volume, payments, h]

/-! ## Books -/

/-- A bank settles a payment by making it: it makes none that the payer cannot afford. -/
theorem Currency.settles_iff_pay? {before after : Bank} {payment : Payment} :
    Currency.Settles before after (some payment) ↔
      before.pay? payment.payer payment.payee payment.amount true = some after := by
  unfold Currency.Settles
  dsimp only
  rw [Bank.run_canAfford, Bank.run_pay, ← Bank.isSome_pay? _ _ payment.payee]
  cases before.pay? payment.payer payment.payee payment.amount true with
  | none => simp
  | some paid =>
    constructor
    · rintro ⟨-, hpay⟩
      cases hpay
      rfl
    · intro hpay
      cases hpay
      exact ⟨rfl, rfl⟩

/-- A payment that is settled has moved its amount. -/
theorem Bank.Moves.of_settles {before after : Bank} {payment : Payment}
    (h : Currency.Settles before after (some payment)) :
    Moves before after payment.payer payment.payee payment.amount :=
  .of_pay? (Currency.settles_iff_pay?.1 h)

theorem Bank.Pays.of_settles {before after : Bank} {payment : Payment}
    (h : Currency.Settles before after (some payment)) :
    Pays before after payment.payer payment.payee payment.amount :=
  .of_pay? (Currency.settles_iff_pay?.1 h)

/-- An amount can be paid exactly if it is zero or leaves the payer the deposit. -/
theorem Currency.exists_settles_iff (before : Bank) (payer payee : AccountId) {amount : Int}
    (hamount : 0 ≤ amount) :
    (∃ after, Currency.Settles before after (some ⟨payer, payee, amount⟩)) ↔
      amount = 0 ∨ (before.deposit : Int) ≤ before.balance payer - amount := by
  simp only [settles_iff_pay?]
  rw [← Option.isSome_iff_exists, Bank.isSome_pay?]
  unfold Bank.canAfford Bank.floor
  rw [decide_eq_true_iff, if_pos rfl]
  omega

/-- Where there is nothing to pay, the funds stay. -/
theorem Currency.Settles.eq_of_free {before after : Bank} {payment? : Option Payment}
    (h : Currency.Settles before after payment?)
    (hfree : ∀ payment, payment? = some payment → payment.amount = 0) : after = before := by
  cases payment? with
  | none => exact h
  | some payment =>
    have hpay := Currency.settles_iff_pay?.1 h
    rw [hfree payment rfl, Bank.pay?_zero] at hpay
    exact (Option.some.inj hpay).symm

/-- The receipts account for the way from one bank to the other: every balance has changed by what the
account has earned and spent, so that the total is the same, and no account that held the deposit, or that
held anything at all, has been brought below. -/
structure Bank.Reconciles (before after : Bank) (past : List Receipt) : Prop where
  deposit_eq : after.deposit = before.deposit
  total_eq : after.total = before.total
  balance_eq : ∀ account,
    after.balance account = before.balance account + earned account past - spent account past
  le_balance : ∀ (account : AccountId) (least : Int), least ≤ before.deposit →
    least ≤ before.balance account → least ≤ after.balance account

namespace Bank.Reconciles

variable {start middle bank : Bank} {past later : List Receipt} {receipt : Receipt}

theorem refl (bank : Bank) : Reconciles bank bank [] where
  deposit_eq := rfl
  total_eq := rfl
  balance_eq _ := (Int.sub_zero _).trans (Int.add_zero _) |>.symm
  le_balance _ _ _ h := h

theorem trans (hfirst : Reconciles start middle past) (hsecond : Reconciles middle bank later) :
    Reconciles start bank (past ++ later) where
  deposit_eq := hsecond.deposit_eq.trans hfirst.deposit_eq
  total_eq := hsecond.total_eq.trans hfirst.total_eq
  balance_eq account := by
    have hmiddle := hfirst.balance_eq account
    have hbank := hsecond.balance_eq account
    unfold earned spent at *
    rw [volume_append, volume_append]
    omega
  le_balance account least hdeposit hleast := by
    have hmiddle := hfirst.le_balance account least hdeposit hleast
    exact hsecond.le_balance account least (hfirst.deposit_eq ▸ hdeposit) hmiddle

/-- One receipt: if it is of a sale, the price has been moved, and else nothing. -/
theorem of_settles (h : Currency.Settles start bank receipt.payment?) :
    Reconciles start bank [receipt] := by
  unfold Currency.Settles at h
  cases hp : receipt.payment? with
  -- Nothing was to be paid, so the funds are the same and both sums are zero.
  | none =>
    rw [hp] at h
    cases h
    refine ⟨rfl, rfl, fun account => ?_, fun _ _ _ h => h⟩
    unfold earned spent
    rw [volume_of_free _ _ hp, volume_of_free _ _ hp]
    omega
  | some payment =>
    rw [hp] at h
    have hmoves := Bank.Moves.of_settles h
    refine ⟨hmoves.deposit_eq, hmoves.total_eq, fun account => ?_, fun _ _ => hmoves.le_balance⟩
    unfold earned spent
    rw [volume_of_paid _ _ hp, volume_of_paid _ _ hp]
    exact hmoves.balance_eq account

end Bank.Reconciles

namespace Market

/-! ## Runs -/

/-- A call without a receipt has changed nothing at all. -/
theorem after_eq_of_receipt?_eq_none {σ : Type} [Currency σ] [Currency.Reliable σ] {market : Market σ}
    {call : Call} (hn : market.store.journal = none) (hr : market.receipt? call = none) :
    market.after call = market := by
  have h := allOrNothing_act call.caller call.action hn
  unfold AllOrNothing at h
  unfold receipt? answer at hr
  unfold after
  cases ha : act call.caller call.action market with
  | error fault next =>
    rw [ha] at h
    exact h
  | ok answer next =>
    rw [ha] at h hr
    cases answer with
    | done receipt => cases hr
    | refused refusal => exact h

variable {market : Market Bank}

theorem reconciles_after (call : Call) (hn : market.store.journal = none) :
    market.funds.Reconciles (market.after call).funds (market.receipt? call).toList := by
  cases hr : market.receipt? call with
  | none =>
    rw [after_eq_of_receipt?_eq_none hn hr]
    exact .refl market.funds
  | some receipt => exact .of_settles (does_of_receipt? hn hr).2

/-- The receipts of a run account for what has become of the funds. -/
theorem reconciles_run (calls : List Call) (hn : market.store.journal = none) :
    market.funds.Reconciles (market.run calls).funds (market.receipts calls) := by
  -- The books of the run are those up to its last call, carried on by that call.
  induction calls using List.reverseRecOn with
  | nil => exact .refl market.funds
  | append_singleton calls call ih =>
    rw [run_concat, receipts_concat]
    exact ih.trans (reconciles_after call (journal_run calls hn))

/-- **Funds reconcile with sales.** Whatever calls are made at a market with a bank in which no balance is
negative: every balance has changed by what the account has earned as a seller, less what it has spent as a
buyer; the total is the same, and no balance is negative; an account that holds the deposit at some point of
the run is not below it at the end; and a call that is not completed, or that has nothing to pay, leaves the
funds as they are. -/
theorem funds_reconcile (calls : List Call) (hn : market.store.journal = none)
    (hstart : ∀ account, 0 ≤ market.funds.balance account) :
    let final := (market.run calls).funds
    (∀ account, final.balance account - market.funds.balance account =
        earned account (market.receipts calls) - spent account (market.receipts calls)) ∧
      final.total = market.funds.total ∧ (∀ account, 0 ≤ final.balance account) ∧
      (∀ earlier later, calls = earlier ++ later → ∀ account,
        market.funds.deposit ≤ (market.run earlier).funds.balance account →
          market.funds.deposit ≤ final.balance account) ∧
      ∀ call, (∀ payment, ((market.run calls).receipt? call).bind Receipt.payment? = some payment →
          payment.amount = 0) → ((market.run calls).after call).funds = final := by
  intro final
  have h : market.funds.Reconciles final (market.receipts calls) := reconciles_run calls hn
  refine ⟨fun account => ?_, h.total_eq, fun account => ?_, ?_, ?_⟩
  · rw [h.balance_eq]
    omega
  · exact h.le_balance account 0 (Int.natCast_nonneg _) (hstart account)
  -- The books of the rest of the run start with what there is at that point.
  · rintro earlier later rfl account hdeposit
    have hearlier := reconciles_run earlier hn
    have hlater := reconciles_run later (journal_run earlier hn)
    show _ ≤ (market.run (earlier ++ later)).funds.balance account
    rw [run_append]
    exact hlater.le_balance account _ (Int.le_of_eq (by rw [hearlier.deposit_eq])) hdeposit
  · intro call hfree
    have hcalls : (market.run calls).store.journal = none := journal_run calls hn
    cases hr : (market.run calls).receipt? call with
    | none => rw [after_eq_of_receipt?_eq_none hcalls hr]
    | some receipt =>
      rw [hr] at hfree
      exact (does_of_receipt? hcalls hr).2.eq_of_free hfree

/-- A market that has just opened, with a bank that keeps a deposit of 5. -/
def funded : Market Bank :=
  opened default 10 0 0 (({ deposit := 5 } : Bank).setBalance (.name "ann") 20 |>.setBalance (.name "bob") 60)
    { time := "" } Method.settings

/-- An account sells a token for 40, cannot afford another one for 40, and sells the first one back for
12. -/
def trades : List Call :=
  [⟨.name "ann", .createAccount (.string "studio")⟩,
    ⟨.name "ann", .mint (.string "studio") (.int 30) (.raw (.object
      [("name", .string "Dawn"), ("mime_type", .string "image/png"),
        ("metadata_uri", .string "ipfs://dawn"), ("supply", .int 2)]))⟩,
    ⟨.name "bob", .launchBuy (.int 1) (.int 40)⟩,
    ⟨.name "bob", .launchBuy (.int 1) (.int 40)⟩,
    ⟨.name "bob", .list (.int 1) (.int 10)⟩,
    ⟨.name "ann", .buy (.int 1) (.int 12)⟩]

theorem funds_reconcile_trades :
    funded.store.journal = none ∧ (∀ account, 0 ≤ funded.funds.balance account) ∧
      (funded.run trades).funds.balance (.name "bob") - funded.funds.balance (.name "bob") = 12 - 40 ∧
        funded.funds.deposit ≤ (funded.run trades).funds.balance (.name "bob") := by
  have hn : funded.store.journal = none := rfl
  have hstart : ∀ account, 0 ≤ funded.funds.balance account := by
    intro account
    show 0 ≤ ((({ deposit := 5 } : Bank).setBalance (.name "ann") 20).setBalance
      (.name "bob") 60).balance account
    rw [Bank.balance_setBalance, Bank.balance_setBalance]
    split
    · decide
    · split
      · decide
      · exact Int.le_refl 0
  obtain ⟨hbalance, -, -, hdeposit, -⟩ := funds_reconcile trades hn hstart
  refine ⟨hn, hstart, ?_, hdeposit [] trades rfl _ (by decide +kernel)⟩
  rw [hbalance]
  decide +kernel

end Market

end EditionMarket
