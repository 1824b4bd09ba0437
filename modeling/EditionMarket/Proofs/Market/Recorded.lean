import EditionMarket.Market
import EditionMarket.Proofs.Transaction.Component

/-!
# Actions leave nothing unrecorded

What an action does to the store is recorded, payments included: they do not touch the store. So the
transaction around an action is as good as none if the action succeeds, and gives back the store if it
does not.

Main statement: `act_eq`, a call in terms of its action alone.
-/

namespace EditionMarket

variable {σ α : Type} {needs gained : List Slot}

instance : LawfulStore (Market σ) := ⟨fun _ _ => rfl, fun _ => rfl, fun _ _ _ => rfl⟩

/-! ## Programs on parts of a market -/

/-- A program on the store is lifted to the market by running it on the market's store. -/
theorem Market.liftM_eq_onStore (program : StoreM α) :
    (liftM program : MarketM σ α) = Market.onStore program := rfl

theorem Recorded.onStore {program : StoreM α} (hp : Recorded needs program gained) :
    Recorded needs (liftM program : MarketM σ α) gained := by
  rw [Market.liftM_eq_onStore]
  intro start held market hn hs
  have h := hp start held market.store hn hs
  have hclosed : (closed market).store = closed market.store := rfl
  unfold Market.onStore
  rw [hclosed]
  -- The market ends with the store that the program leaves, and `h` speaks of that store.
  cases hr : program market.store with
  | ok value store =>
    rw [hr] at h
    refine ⟨h.1, ?_⟩
    rw [h.2]
    rfl
  | error fault store =>
    rw [hr] at h
    refine ⟨h.1, ?_⟩
    rw [h.2]
    rfl

theorem Recorded.onFunds (program : StateM σ α) : Recorded needs (Market.onFunds program) [] := by
  intro start held market _ hs
  exact ⟨hs, rfl⟩

namespace Market

/-! ## Actions -/

theorem recorded_ensureListed (caller : AccountId) (token : ItemId) :
    Recorded needs (ensureListed caller token) [] := by
  refine (Holdings.recorded_require token).bind fun record => ?_
  refine (Holdings.recorded_ensureOwner caller token).bind fun _ => ?_
  exact Recorded.ite (Recorded.refuse _) (Recorded.pure _)

theorem recorded_ensureMinter (caller : AccountId) (creator : CreatorId) (edition : ItemId) :
    Recorded needs (ensureMinter caller creator edition) [] := by
  refine (Issuance.recorded_require edition).discard.bind fun _ => ?_
  refine (Registry.recorded_ensureOwner caller creator).bind fun _ => ?_
  exact Issuance.recorded_ensureCreator creator edition

theorem recorded_createAccount (caller : AccountId) (creator : Value) :
    Recorded needs (createAccount caller creator) [] :=
  (Registry.recorded_register creator caller).bind fun _ => Recorded.pure _

theorem recorded_dropAccount (caller : AccountId) (creator : Value) :
    Recorded needs (dropAccount caller creator) [] := by
  refine (Recorded.ofExcept _).bind fun id => ?_
  exact (Registry.recorded_release id caller).bind fun _ => Recorded.pure _

theorem recorded_mint (caller : AccountId) (creator price : Value) (description : Description) :
    Recorded needs (mint caller creator price description) [] := by
  refine (Recorded.ofExcept _).bind fun creator => ?_
  refine (Recorded.ofExcept _).bind fun price => ?_
  refine (Recorded.ofExcept _).bind fun metadata => ?_
  refine (Registry.recorded_ensureOwner caller creator).bind fun _ => ?_
  exact (Issuance.recorded_mint creator price metadata).bind fun _ => Recorded.pure _

theorem recorded_launchGift (caller : AccountId) (creator edition receiver : Value) :
    Recorded needs (launchGift caller creator edition receiver) [] := by
  refine (Recorded.ofExcept _).bind fun creator => ?_
  refine (Recorded.ofExcept _).bind fun edition => ?_
  refine (Recorded.ofExcept _).bind fun receiver => ?_
  refine (recorded_ensureMinter caller creator edition).bind fun _ => ?_
  exact (Issuance.recorded_issue edition receiver).bind fun _ => Recorded.pure _

theorem recorded_transfer (caller : AccountId) (token : Value) :
    Recorded needs (transfer caller token) [] := by
  refine (Recorded.ofExcept _).bind fun token => ?_
  refine (Holdings.recorded_require token).discard.bind fun _ => ?_
  refine (Holdings.recorded_ensureOwner caller token).bind fun _ => ?_
  exact (Holdings.recorded_transfer token caller caller).bind fun _ => Recorded.pure _

theorem recorded_list (caller : AccountId) (token price : Value) :
    Recorded needs (list caller token price) [] := by
  refine (Recorded.ofExcept _).bind fun token => ?_
  refine (Recorded.ofExcept _).bind fun price => ?_
  refine (Holdings.recorded_require token).bind fun record => ?_
  refine (Holdings.recorded_ensureOwner caller token).bind fun _ => ?_
  split
  · exact Recorded.refuse _
  · exact (Holdings.recorded_setPrice token _).bind fun _ => Recorded.pure _

theorem recorded_unlist (caller : AccountId) (token : Value) :
    Recorded needs (unlist caller token) [] := by
  refine (Recorded.ofExcept _).bind fun token => ?_
  refine (recorded_ensureListed caller token).bind fun _ => ?_
  exact (Holdings.recorded_setPrice token _).bind fun _ => Recorded.pure _

theorem recorded_setLaunchPrice (caller : AccountId) (creator edition price : Value) :
    Recorded needs (setLaunchPrice caller creator edition price) [] := by
  refine (Recorded.ofExcept _).bind fun creator => ?_
  refine (Recorded.ofExcept _).bind fun edition => ?_
  refine (Recorded.ofExcept _).bind fun price => ?_
  refine (recorded_ensureMinter caller creator edition).bind fun _ => ?_
  exact (Issuance.recorded_setPrice edition price).bind fun _ => Recorded.pure _

theorem recorded_setPrice (caller : AccountId) (token price : Value) :
    Recorded needs (setPrice caller token price) [] := by
  refine (Recorded.ofExcept _).bind fun token => ?_
  refine (Recorded.ofExcept _).bind fun price => ?_
  refine (recorded_ensureListed caller token).bind fun _ => ?_
  exact (Holdings.recorded_setPrice token _).bind fun _ => Recorded.pure _

theorem recorded_burn (caller : AccountId) (token : Value) :
    Recorded needs (burn caller token) [] := by
  refine (Recorded.ofExcept _).bind fun token => ?_
  refine (Holdings.recorded_require token).bind fun record => ?_
  refine (Holdings.recorded_ensureOwner caller token).bind fun _ => ?_
  exact (Holdings.recorded_burn token).bind fun _ => Recorded.pure _

/-! ## Actions with a payment -/

variable [Currency σ]

theorem recorded_ensureCanPay (payer : AccountId) (amount : Int) :
    Recorded needs (ensureCanPay payer amount : MarketM σ Unit) [] := by
  refine (Recorded.onFunds _).bind fun can => ?_
  refine Recorded.ite ?_ (Recorded.pure _)
  exact (Recorded.onFunds _).bind fun balance => (Recorded.refuse _).onStore

theorem recorded_pay (payer payee : AccountId) (amount : Int) :
    Recorded needs (pay payer payee amount : MarketM σ Unit) [] := by
  refine (Recorded.onFunds _).bind fun paid => ?_
  exact Recorded.ite (Recorded.refuse _).onStore (Recorded.pure _)

theorem recorded_launchBuy (caller : AccountId) (edition bid : Value) :
    Recorded needs (launchBuy caller edition bid : MarketM σ Receipt) [] := by
  refine (Recorded.ofExcept _).onStore.bind fun edition => ?_
  refine (Recorded.ofExcept _).onStore.bind fun bid => ?_
  refine (Issuance.recorded_require edition).onStore.bind fun record => ?_
  refine (Issuance.recorded_ownerOf edition).onStore.bind fun seller => ?_
  refine Recorded.ite ((Recorded.refuse _).onStore.bind fun _ => ?_) ?_ <;>
  · refine Recorded.ite ((Recorded.refuse _).onStore.bind fun _ => ?_) ?_ <;>
    · refine (recorded_ensureCanPay caller bid).bind fun _ => ?_
      refine (Issuance.recorded_issue edition caller).onStore.bind fun token => ?_
      exact (recorded_pay caller seller bid).bind fun _ => Recorded.pure _

theorem recorded_buy (caller : AccountId) (token bid : Value) :
    Recorded needs (buy caller token bid : MarketM σ Receipt) [] := by
  refine (Recorded.ofExcept _).onStore.bind fun token => ?_
  refine (Recorded.ofExcept _).onStore.bind fun bid => ?_
  refine (Holdings.recorded_require token).onStore.bind fun record => ?_
  split
  · exact (Recorded.refuse _).onStore
  refine Recorded.ite ((Recorded.refuse _).onStore.bind fun _ => ?_) ?_ <;>
  · refine Recorded.ite ((Recorded.refuse _).onStore.bind fun _ => ?_) ?_ <;>
    · refine (recorded_ensureCanPay caller bid).bind fun _ => ?_
      refine (Holdings.recorded_transfer token record.owner caller).onStore.bind fun _ => ?_
      refine (Holdings.recorded_setPrice token none).onStore.bind fun _ => ?_
      exact (recorded_pay caller record.owner bid).bind fun _ => Recorded.pure _

/-- Every action is recorded. -/
theorem recorded_perform (caller : AccountId) (action : Action) :
    Recorded needs (perform caller action : MarketM σ Receipt) [] := by
  cases action with
  | createAccount creator => exact (recorded_createAccount caller creator).onStore
  | dropAccount creator => exact (recorded_dropAccount caller creator).onStore
  | mint creator price description =>
    exact (recorded_mint caller creator price description).onStore
  | launchGift creator edition receiver =>
    exact (recorded_launchGift caller creator edition receiver).onStore
  | launchBuy edition bid => exact recorded_launchBuy caller edition bid
  | buy token bid => exact recorded_buy caller token bid
  | transfer token => exact (recorded_transfer caller token).onStore
  | list token price => exact (recorded_list caller token price).onStore
  | unlist token => exact (recorded_unlist caller token).onStore
  | setLaunchPrice creator edition price =>
    exact (recorded_setLaunchPrice caller creator edition price).onStore
  | setPrice token price => exact (recorded_setPrice caller token price).onStore
  | burn token => exact (recorded_burn caller token).onStore

/-! ## Calls -/

/-- A call where no transaction is open. An action that succeeds has its event logged, and one that does
not has changed the funds at most. -/
theorem act_eq (caller : AccountId) (action : Action) {market : Market σ}
    (hn : market.store.journal = none) :
    act caller action market =
      match perform caller action market with
      | .ok receipt next => .ok (.done receipt) (next.logReceipt caller receipt)
      | .error (.refused refusal) next => .ok (.refused refusal) { next with store := market.store }
      | .error fault next => .error fault { next with store := market.store } := by
  unfold act
  -- With the transaction out of the way, there is only the answer to be made from the end.
  rw [transaction_eq (recorded_perform caller action) hn]
  cases perform caller action market with
  | ok receipt next => rfl
  | error fault next => cases fault <;> rfl

end Market

end EditionMarket
