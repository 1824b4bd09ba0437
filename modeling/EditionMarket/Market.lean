import EditionMarket.Bank
import EditionMarket.Event.Log
import EditionMarket.Holdings
import EditionMarket.Issuance
import EditionMarket.Market.Action

/-!
# Markets

A market lets accounts register creators, mint editions, and give, sell, list and burn tokens. It has a
store, funds with which payments are made, and a log of events.

Every action checks its arguments, then whether what it names is there, then whether the caller
controls it, then what else stands in its way. Only then does it change the store, and last of all it
has the payment made. It does so in a transaction, so a refusal at any point leaves the store as it
was; a completed action leaves one event.
-/

namespace EditionMarket

/-- A market with funds of type `σ`. -/
structure Market (σ : Type) where
  store : Store
  funds : σ
  events : EventLog
  methods : Method → MethodSettings := Method.settings

/-- Programs that work on a market. -/
abbrev MarketM (σ : Type) := EStateM Fault (Market σ)

namespace Market

variable {σ : Type}

instance : HasStore (Market σ) := ⟨Market.store, fun market store => { market with store := store }⟩

/-- A program that works on the store. -/
def onStore {α : Type} (program : StoreM α) : MarketM σ α := fun market =>
  match program market.store with
  | .ok value store => .ok value { market with store := store }
  | .error fault store => .error fault { market with store := store }

instance : MonadLift StoreM (MarketM σ) := ⟨onStore⟩

/-- A program that works on the funds. -/
def onFunds {α : Type} (program : StateM σ α) : MarketM σ α := fun market =>
  let (value, funds) := program.run market.funds
  .ok value { market with funds := funds }

/-! ## Parts of actions -/

/-- Refuses to go on unless an account can afford an amount. -/
def ensureCanPay [Currency σ] (payer : AccountId) (amount : Int) : MarketM σ Unit := do
  if !(← onFunds (Currency.canAfford payer amount)) then
    let balance ← onFunds (Currency.balance payer)
    StoreM.refuse (.cannotAfford amount balance)

/-- Has an amount paid. -/
def pay [Currency σ] (payer payee : AccountId) (amount : Int) : MarketM σ Unit := do
  if !(← onFunds (Currency.pay payer payee amount)) then
    StoreM.refuse (.paymentFailed amount payer payee)

/-- Refuses to go on unless a token is there, belongs to the caller and is for sale. -/
def ensureListed (caller : AccountId) (token : ItemId) : StoreM Unit := do
  let record ← Holdings.require token
  Holdings.ensureOwner caller token
  if record.price = none then StoreM.refuse (.notListed token)

/-- Refuses to go on unless an edition is there, the caller owns the creator, and the creator has
minted the edition. -/
def ensureMinter (caller : AccountId) (creator : CreatorId) (edition : ItemId) : StoreM Unit := do
  discard <| Issuance.require edition
  Registry.ensureOwner caller creator
  Issuance.ensureCreator creator edition

/-! ## Actions -/

/-- Registers a creator to the caller. -/
def createAccount (caller : AccountId) (creator : Value) : StoreM Receipt := do
  let record ← Registry.register creator caller
  return .creatorAdded record.id

/-- Lets go of a creator of the caller. -/
def dropAccount (caller : AccountId) (creator : Value) : StoreM Receipt := do
  let creator ← StoreM.ofExcept (Argument.creatorId creator)
  let removed ← Registry.release creator caller
  return .creatorDropped creator removed

/-- Mints an edition under a creator of the caller. -/
def mint (caller : AccountId) (creator price : Value) (description : Description) :
    StoreM Receipt := do
  let creator ← StoreM.ofExcept (Argument.creatorId creator)
  let price ← StoreM.ofExcept (Argument.amount "price" price)
  let metadata ← StoreM.ofExcept description.read
  Registry.ensureOwner caller creator
  let edition ← Issuance.mint creator price metadata
  return .minted creator edition price metadata.supply

/-- Gives a new token of an edition of the caller to someone. -/
def launchGift (caller : AccountId) (creator edition receiver : Value) : StoreM Receipt := do
  let creator ← StoreM.ofExcept (Argument.creatorId creator)
  let edition ← StoreM.ofExcept (Argument.itemId "launch_token_id" edition)
  let receiver ← StoreM.ofExcept (Argument.account "receiver" receiver)
  ensureMinter caller creator edition
  let token ← Issuance.issue edition receiver
  return .gifted edition token receiver

/-- Buys a new token of an edition from the owner of its creator. -/
def launchBuy [Currency σ] (caller : AccountId) (edition bid : Value) : MarketM σ Receipt := do
  let edition ← StoreM.ofExcept (Argument.itemId "launch_token_id" edition)
  let bid ← StoreM.ofExcept (Argument.amount "bid_price" bid)
  let record ← Issuance.require edition
  let seller ← Issuance.ownerOf edition
  if seller = .nobody then StoreM.refuse (.creatorDisconnected record.creator edition)
  if bid < record.price then StoreM.refuse (.belowLaunchPrice bid record.price)
  ensureCanPay caller bid
  let token ← Issuance.issue edition caller
  -- The payment comes last, so that nothing has to be paid back.
  pay caller seller bid
  return .launched edition token bid seller caller

/-- Buys a token that is for sale from its owner. -/
def buy [Currency σ] (caller : AccountId) (token bid : Value) : MarketM σ Receipt := do
  let token ← StoreM.ofExcept (Argument.itemId "token_id" token)
  let bid ← StoreM.ofExcept (Argument.amount "bid_price" bid)
  let record ← Holdings.require token
  match record.price with
  | none => StoreM.refuse (.notForSale token)
  | some price =>
    let seller := record.owner
    if seller = caller then StoreM.refuse (.alreadyOwned caller token)
    if bid < price then StoreM.refuse (.belowListedPrice bid price)
    ensureCanPay caller bid
    Holdings.transfer token seller caller
    -- The buyer has not offered the token to anyone.
    Holdings.setPrice token none
    pay caller seller bid
    return .bought token bid seller caller

/-- Moves a token of the caller to the caller. -/
def transfer (caller : AccountId) (token : Value) : StoreM Receipt := do
  let token ← StoreM.ofExcept (Argument.itemId "token_id" token)
  discard <| Holdings.require token
  Holdings.ensureOwner caller token
  Holdings.transfer token caller caller
  return .transferred token caller

/-- Puts a token of the caller up for sale. -/
def list (caller : AccountId) (token price : Value) : StoreM Receipt := do
  let token ← StoreM.ofExcept (Argument.itemId "token_id" token)
  let price ← StoreM.ofExcept (Argument.amount "price" price)
  let record ← Holdings.require token
  Holdings.ensureOwner caller token
  match record.price with
  | some listed => StoreM.refuse (.alreadyListed token listed)
  | none =>
    Holdings.setPrice token (some price)
    return .listed token price

/-- Takes a token of the caller off sale. -/
def unlist (caller : AccountId) (token : Value) : StoreM Receipt := do
  let token ← StoreM.ofExcept (Argument.itemId "token_id" token)
  ensureListed caller token
  Holdings.setPrice token none
  return .unlisted token

/-- Changes the price of an edition of the caller. -/
def setLaunchPrice (caller : AccountId) (creator edition price : Value) : StoreM Receipt := do
  let creator ← StoreM.ofExcept (Argument.creatorId creator)
  let edition ← StoreM.ofExcept (Argument.itemId "launch_token_id" edition)
  let price ← StoreM.ofExcept (Argument.amount "price" price)
  ensureMinter caller creator edition
  Issuance.setPrice edition price
  return .launchPriceSet edition price

/-- Changes the price of a token of the caller that is for sale. -/
def setPrice (caller : AccountId) (token price : Value) : StoreM Receipt := do
  let token ← StoreM.ofExcept (Argument.itemId "token_id" token)
  let price ← StoreM.ofExcept (Argument.amount "price" price)
  ensureListed caller token
  Holdings.setPrice token (some price)
  return .priceSet token price

/-- Destroys a token of the caller. -/
def burn (caller : AccountId) (token : Value) : StoreM Receipt := do
  let token ← StoreM.ofExcept (Argument.itemId "token_id" token)
  let record ← Holdings.require token
  Holdings.ensureOwner caller token
  Holdings.burn token
  return .burnt token record.edition

/-- What an action does, without the transaction around it and the event after it. -/
def perform [Currency σ] (caller : AccountId) : Action → MarketM σ Receipt
  | .createAccount creator => createAccount caller creator
  | .dropAccount creator => dropAccount caller creator
  | .mint creator price description => mint caller creator price description
  | .launchGift creator edition receiver => launchGift caller creator edition receiver
  | .launchBuy edition bid => launchBuy caller edition bid
  | .buy token bid => buy caller token bid
  | .transfer token => transfer caller token
  | .list token price => list caller token price
  | .unlist token => unlist caller token
  | .setLaunchPrice creator edition price => setLaunchPrice caller creator edition price
  | .setPrice token price => setPrice caller token price
  | .burn token => burn caller token

/-! ## Calls -/

/-- The own fields of the event that a completed action leaves. -/
def eventFields (caller : AccountId) (receipt : Receipt) : Fields :=
  [("method", .string receipt.method.name), ("caller", caller.toValue)] ++ receipt.fields

/-- No own field of such an event has the name of a field that every record starts with, and no two have the
same name. -/
theorem nodup_eventFields (caller : AccountId) (receipt : Receipt) :
    ("timestamp" :: "sequence" :: "event_type" :: Listing.keys (eventFields caller receipt)).Nodup := by
  cases receipt <;> simp [eventFields, Receipt.fields, Listing.keys]

/-- Logs the event of a completed action. -/
def logReceipt (market : Market σ) (caller : AccountId) (receipt : Receipt) : Market σ :=
  { market with events := market.events.log receipt.kind.text (eventFields caller receipt) }

/-- Carries out an action in a transaction. A refusal is an answer like any other. -/
def act [Currency σ] (caller : AccountId) (action : Action) : MarketM σ Answer := fun market =>
  match transaction (perform caller action) market with
  | .ok receipt market => .ok (.done receipt) (market.logReceipt caller receipt)
  | .error (.refused refusal) market => .ok (.refused refusal) market
  | .error fault market => .error fault market

/-- Carries out the action of a method name and its arguments. -/
def invoke [Currency σ] (method arguments : Value) (caller : AccountId) : MarketM σ Answer := do
  match named? method with
  | none => return .refused (.methodUnknown method Method.sortedNames)
  | some named =>
    match arguments with
    | .list given =>
      match Action.ofArguments? named given with
      | some action => act caller action
      | none =>
        return .refused (.argumentCount named.name named.arity given.length
          ((← get).methods named).description)
    | got => return .refused (.argumentsNotList named.name got)
where
  /-- The method that a value names. -/
  named? : Value → Option Method
    | .string name => Method.ofName? name
    | _ => none

end Market

end EditionMarket
