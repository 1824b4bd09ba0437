import EditionMarket.Event.Kind
import EditionMarket.Market.Method
import EditionMarket.Metadata

/-!
# Actions and receipts

An action is a call of a method with arguments that nobody has looked at yet. A receipt says what a
completed action did.
-/

namespace EditionMarket

/-- The description of an edition that is to be minted: a value that has to be read, or metadata that
have been read before. -/
inductive Description
  | raw (value : Value)
  | ready (metadata : Metadata)
deriving DecidableEq

/-- The metadata that a description gives. -/
def Description.read : Description → Except Refusal Metadata
  | raw value => Metadata.ofValue value
  | ready metadata => .ok metadata

/-- What a caller asks a market to do. -/
inductive Action
  /-- Register a creator to the caller. -/
  | createAccount (creator : Value)
  /-- Let go of a creator. -/
  | dropAccount (creator : Value)
  /-- Mint an edition. -/
  | mint (creator price : Value) (description : Description)
  /-- Give a new token of an edition away. -/
  | launchGift (creator edition receiver : Value)
  /-- Buy a new token of an edition. -/
  | launchBuy (edition bid : Value)
  /-- Buy a token that is for sale. -/
  | buy (token bid : Value)
  /-- Move a token to its owner. -/
  | transfer (token : Value)
  /-- Put a token up for sale. -/
  | list (token price : Value)
  /-- Take a token off sale. -/
  | unlist (token : Value)
  /-- Change the price of an edition. -/
  | setLaunchPrice (creator edition price : Value)
  /-- Change the price of a token that is for sale. -/
  | setPrice (token price : Value)
  /-- Destroy a token. -/
  | burn (token : Value)
deriving DecidableEq

namespace Action

/-- The method of an action. -/
def method : Action → Method
  | createAccount .. => .createAccount
  | dropAccount .. => .dropAccount
  | mint .. => .mint
  | launchGift .. => .launchGift
  | launchBuy .. => .launchBuy
  | buy .. => .buy
  | transfer .. => .transfer
  | list .. => .list
  | unlist .. => .unlist
  | setLaunchPrice .. => .setLaunchPrice
  | setPrice .. => .setPrice
  | burn .. => .burn

/-- The action of a method and its arguments, if it is given as many as it takes. -/
def ofArguments? : Method → List Value → Option Action
  | .createAccount, [creator] => some (createAccount creator)
  | .dropAccount, [creator] => some (dropAccount creator)
  | .mint, [creator, price, description] => some (mint creator price (.raw description))
  | .launchGift, [creator, edition, receiver] => some (launchGift creator edition receiver)
  | .launchBuy, [edition, bid] => some (launchBuy edition bid)
  | .buy, [token, bid] => some (buy token bid)
  | .transfer, [token] => some (transfer token)
  | .list, [token, price] => some (list token price)
  | .unlist, [token] => some (unlist token)
  | .setLaunchPrice, [creator, edition, price] => some (setLaunchPrice creator edition price)
  | .setPrice, [token, price] => some (setPrice token price)
  | .burn, [token] => some (burn token)
  | _, _ => none

end Action

/-- What a completed action did. -/
inductive Receipt
  | creatorAdded (creator : CreatorId)
  | creatorDropped (creator : CreatorId) (removed : Bool)
  | minted (creator : CreatorId) (edition : ItemId) (price supply : Int)
  | gifted (edition token : ItemId) (receiver : AccountId)
  | launched (edition token : ItemId) (price : Int) (seller buyer : AccountId)
  | bought (token : ItemId) (price : Int) (seller buyer : AccountId)
  | transferred (token : ItemId) (owner : AccountId)
  | listed (token : ItemId) (price : Int)
  | unlisted (token : ItemId)
  | launchPriceSet (edition : ItemId) (price : Int)
  | priceSet (token : ItemId) (price : Int)
  | burnt (token edition : ItemId)
deriving DecidableEq

namespace Receipt

/-- The method that was called. -/
def method : Receipt → Method
  | creatorAdded .. => .createAccount
  | creatorDropped .. => .dropAccount
  | minted .. => .mint
  | gifted .. => .launchGift
  | launched .. => .launchBuy
  | bought .. => .buy
  | transferred .. => .transfer
  | listed .. => .list
  | unlisted .. => .unlist
  | launchPriceSet .. => .setLaunchPrice
  | priceSet .. => .setPrice
  | burnt .. => .burn

/-- The kind of event that the action leaves. -/
def kind : Receipt → EventKind
  | creatorAdded .. => .newCreator
  | creatorDropped .. => .droppedCreator
  | minted .. => .tokenCreated
  | gifted .. | launched .. => .tokenInitialCollection
  | bought .. | transferred .. => .tokenTransferred
  | listed .. => .tokenListed
  | unlisted .. => .tokenUnlisted
  | launchPriceSet .. => .tokenLaunchPriceUpdated
  | priceSet .. => .tokenPriceUpdated
  | burnt .. => .tokenDestroyed

/-- The receipt as fields. -/
def fields : Receipt → Fields
  | creatorAdded creator => [("creator_id", .string creator)]
  | creatorDropped creator removed =>
    [("creator_id", .string creator), ("removed", .bool removed)]
  | minted creator edition price supply =>
    [("creator_id", .string creator), ("launch_token_id", .int edition), ("price", .int price),
      ("supply", .int supply)]
  | gifted edition token receiver =>
    [("launch_token_id", .int edition), ("token_id", .int token), ("receiver", receiver.toValue)]
  | launched edition token price seller buyer =>
    [("launch_token_id", .int edition), ("token_id", .int token), ("price", .int price),
      ("seller", seller.toValue), ("buyer", buyer.toValue)]
  | bought token price seller buyer =>
    [("token_id", .int token), ("price", .int price), ("seller", seller.toValue),
      ("buyer", buyer.toValue)]
  | transferred token owner => [("token_id", .int token), ("owner", owner.toValue)]
  | listed token price | priceSet token price => [("token_id", .int token), ("price", .int price)]
  | unlisted token => [("token_id", .int token)]
  | launchPriceSet edition price => [("launch_token_id", .int edition), ("price", .int price)]
  | burnt token edition => [("token_id", .int token), ("launch_token_id", .int edition)]

end Receipt

/-- What a caller is told. -/
inductive Answer
  | done (receipt : Receipt)
  | refused (refusal : Refusal)
deriving DecidableEq

/-- The answer as a value. -/
def Answer.toValue : Answer → Value
  | done receipt => .object (("success", .bool true) :: receipt.fields)
  | refused refusal => refusal.report.toValue

/-- The value that a caller gets for an answer. A refusal whose message cannot be written leaves the
caller without one. -/
def Answer.reply? : Answer → Option Value
  | refused refusal => refusal.report?.map Report.toValue
  | answer => some answer.toValue

/-- A refusal is told by its report, unless the message would have to spell out an integer of too many
digits. -/
theorem Answer.reply?_refused (refusal : Refusal) :
    (refused refusal).reply? =
      if ∃ n ∈ refusal.spelled, Nat.pow 10 Text.mostDigits ≤ n.natAbs then none
      else some refusal.report.toValue := by
  have hiff : refusal.isWritable = true ↔
      ¬ ∃ n ∈ refusal.spelled, Nat.pow 10 Text.mostDigits ≤ n.natAbs := by
    simp [Refusal.isWritable, Text.isWritable]
  unfold reply? Refusal.report?
  simp only [hiff]
  split <;> simp_all

end EditionMarket
