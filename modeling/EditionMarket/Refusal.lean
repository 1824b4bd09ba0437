import EditionMarket.Account
import EditionMarket.Refusal.Report
import EditionMarket.Text.Digits

/-!
# Refusals

A refusal is the cause for which a call cannot complete. `Refusal.code`, `Refusal.message` and
`Refusal.details` say how each cause is reported; nothing else in the library words a refusal. A
message that would spell out an integer of too many digits cannot be written, and then there is no
report: `Refusal.report?`.
-/

namespace EditionMarket

/-- The name under which a creator is registered. -/
abbrev CreatorId := String

/-- The number of an edition or of a token. -/
abbrev ItemId := Int

/-- The cause for which a call cannot complete. -/
inductive Refusal
  /-- A field is not a text. -/
  | textExpected (field : String) (got : Value)
  /-- A text has more bytes than its field allows. -/
  | textTooLong (field : String) (size limit : Nat)
  /-- A creator id has no characters. -/
  | creatorIdEmpty
  /-- A field is not an integer. -/
  | integerExpected (field : String) (got : Value)
  /-- An id lies outside the range of ids. -/
  | idOutOfRange (field : String) (id largest : Int)
  /-- A field calls no named account. -/
  | accountExpected (field : String) (got : Value)
  /-- An amount is less than zero. -/
  | amountNegative (field : String) (amount : Int)
  /-- A supply is not an integer. -/
  | supplyNotInteger
  /-- A supply lies outside the range of supplies. -/
  | supplyOutOfRange (supply : Int) (largest : Nat)
  /-- Metadata are not an object. -/
  | metadataNotObject (got : Value)
  /-- Metadata lack a field. -/
  | metadataMissing (field : String) (required : List String)
  /-- Metadata refuse to be read. -/
  | metadataUnreadable (reason : String)
  /-- No method has this name. -/
  | methodUnknown (method : Value) (available : List String)
  /-- The arguments of a method are not a list. -/
  | argumentsNotList (method : String) (got : Value)
  /-- A method is given the wrong number of arguments. -/
  | argumentCount (method : String) (arity given : Nat) (description : String)
  /-- An edition is to be minted without supply. -/
  | supplyZero
  /-- The creator id is registered. -/
  | creatorTaken (creator : CreatorId)
  /-- The account owns as many creators as it may. -/
  | creatorsFull (account : AccountId) (limit : Nat)
  /-- The creator has minted as many editions as it may. -/
  | editionsFull (creator : CreatorId) (limit : Nat)
  /-- The account holds as many tokens as it may. -/
  | tokensFull (account : AccountId) (limit : Nat)
  /-- The account does not own the creator. -/
  | notCreatorOwner (account : AccountId) (creator : CreatorId)
  /-- The creator did not mint the edition. -/
  | notEditionCreator (creator : CreatorId) (edition : ItemId)
  /-- The account does not own the token. -/
  | notTokenOwner (account : AccountId) (token : ItemId)
  /-- There is no such edition. -/
  | editionNotFound (edition : ItemId)
  /-- There is no such token. -/
  | tokenNotFound (token : ItemId)
  /-- An id counter has reached its ceiling; the code says which one. -/
  | exhausted (code : Code) (counter : Int)
  /-- Every token of the edition has been issued. -/
  | soldOut (edition : ItemId) (issued total : Int)
  /-- The creator of the edition has no owner who could be paid. -/
  | creatorDisconnected (creator : CreatorId) (edition : ItemId)
  /-- A bid is below the price of an edition. -/
  | belowLaunchPrice (bid price : Int)
  /-- A bid is below the price of a listed token. -/
  | belowListedPrice (bid price : Int)
  /-- The token has no price. -/
  | notForSale (token : ItemId)
  /-- The buyer owns the token. -/
  | alreadyOwned (account : AccountId) (token : ItemId)
  /-- The token has a price already. -/
  | alreadyListed (token : ItemId) (price : Int)
  /-- The token has no price that could be changed. -/
  | notListed (token : ItemId)
  /-- The payer cannot afford the amount. -/
  | cannotAfford (amount balance : Int)
  /-- The payment was not made although the payer seemed able to afford it. -/
  | paymentFailed (amount : Int) (payer payee : AccountId)
deriving DecidableEq

namespace Refusal

/-- The code of a refusal. -/
def code : Refusal → Code
  | textExpected .. | textTooLong .. | creatorIdEmpty | integerExpected .. | idOutOfRange ..
  | accountExpected .. | amountNegative .. | supplyNotInteger | supplyOutOfRange ..
  | metadataNotObject .. | metadataMissing .. | metadataUnreadable .. | methodUnknown ..
  | argumentsNotList .. | argumentCount .. => .invalidArgument
  | supplyZero => .zeroSupply
  | creatorTaken .. => .creatorTaken
  | creatorsFull .. => .creatorsFull
  | editionsFull .. => .editionsFull
  | tokensFull .. => .tokensFull
  | notCreatorOwner .. | notEditionCreator .. | notTokenOwner .. => .notOwner
  | editionNotFound .. | tokenNotFound .. => .notFound
  | exhausted code _ => code
  | soldOut .. => .soldOut
  | creatorDisconnected .. => .unavailable
  | belowLaunchPrice .. | belowListedPrice .. => .bidTooLow
  | notForSale .. => .notForSale
  | alreadyOwned .. => .toSelf
  | alreadyListed .. => .alreadyListed
  | notListed .. => .notListed
  | cannotAfford .. | paymentFailed .. => .insufficientFunds

/-- The message of a refusal. -/
def message : Refusal → String
  | textExpected field got => s!"{field} must be a string, got {got.kind}"
  | textTooLong field size limit => s!"{field} is {size} bytes, limit is {limit}"
  | creatorIdEmpty => "creator_id must not be empty"
  | integerExpected field got =>
    s!"{field} must be an integer, got {got.kind}: {got.quoted}"
  | idOutOfRange field id largest => s!"{field} {id} is outside 0..{largest}"
  | accountExpected field got => s!"{field} must be a non-empty string, got {got.quoted}"
  | amountNegative field amount => s!"{field} must not be negative, got {amount}"
  | supplyNotInteger => "supply must be an integer"
  | supplyOutOfRange supply largest =>
    s!"supply must be between 0 and {largest}, got {supply}"
  | metadataNotObject got => s!"metadata must be a mapping, got {got.kind}"
  | metadataMissing field _ => "metadata is missing field " ++ Text.quoted field
  | metadataUnreadable reason => s!"metadata could not be read: {reason}"
  | methodUnknown method _ => s!"Unknown method '{method.plain}'"
  | argumentsNotList method got => s!"{method} args must be a list, got {got.kind}"
  | argumentCount method arity given description =>
    s!"{method} takes {arity} args, got {given}. {description}"
  | supplyZero => "Cannot mint a launch token with zero supply"
  | creatorTaken creator => s!"Creator account '{creator}' is already taken"
  | creatorsFull account limit =>
    s!"Account '{account.text}' already holds {limit} creator accounts"
  | editionsFull creator limit => s!"Creator '{creator}' already has {limit} launch tokens"
  | tokensFull account limit => s!"Account '{account.text}' already holds {limit} tokens"
  | notCreatorOwner account creator =>
    s!"Account '{account.text}' does not own creator '{creator}'"
  | notEditionCreator creator edition =>
    s!"Creator '{creator}' does not own launch token {edition}"
  | notTokenOwner account token => s!"Account '{account.text}' does not own token {token}"
  | editionNotFound edition => s!"Launch token {edition} not found"
  | tokenNotFound token => s!"Token {token} not found"
  | exhausted _ counter => s!"Id counter exhausted at {counter}"
  | soldOut edition issued total =>
    s!"Launch token {edition} is sold out ({issued}/{total} issued)"
  | creatorDisconnected creator edition =>
    s!"Creator '{creator}' of launch token {edition} is disconnected"
  | belowLaunchPrice bid price => s!"Bid {bid} is below launch price {price}"
  | belowListedPrice bid price => s!"Bid {bid} is below listed price {price}"
  | notForSale token => s!"Token {token} is not for sale"
  | alreadyOwned account token => s!"Account '{account.text}' already owns token {token}"
  | alreadyListed token price => s!"Token {token} is already listed at {price}"
  | notListed token => s!"Token {token} is not listed"
  | cannotAfford amount balance => s!"Insufficient funds. Need {amount}, have {balance}"
  | paymentFailed amount payer payee =>
    s!"Funds transfer of {amount} from '{payer.text}' to '{payee.text}' failed"

/-- The integers that the message of a refusal spells out. -/
def spelled : Refusal → List Int
  | textTooLong _ size limit => [size, limit]
  | integerExpected _ got | accountExpected _ got => got.integers
  | idOutOfRange _ id largest => [id, largest]
  | amountNegative _ amount => [amount]
  | supplyOutOfRange supply largest => [supply, largest]
  | methodUnknown method _ => method.integers
  | argumentCount _ arity given _ => [arity, given]
  | creatorsFull account limit | tokensFull account limit => account.toValue.integers ++ [(limit : Int)]
  | editionsFull _ limit => [limit]
  | notCreatorOwner account _ => account.toValue.integers
  | notEditionCreator _ item | editionNotFound item | tokenNotFound item
  | creatorDisconnected _ item | notForSale item | notListed item => [item]
  | notTokenOwner account token | alreadyOwned account token => account.toValue.integers ++ [token]
  | exhausted _ counter => [counter]
  | soldOut edition issued total => [edition, issued, total]
  | belowLaunchPrice bid price | belowListedPrice bid price => [bid, price]
  | alreadyListed token price => [token, price]
  | cannotAfford amount balance => [amount, balance]
  | paymentFailed amount payer payee =>
    amount :: payer.toValue.integers ++ payee.toValue.integers
  | textExpected .. | creatorIdEmpty | supplyNotInteger | metadataNotObject .. | metadataMissing ..
  | metadataUnreadable .. | argumentsNotList .. | supplyZero | creatorTaken .. => []

/-- Whether the message of a refusal can be written. -/
def isWritable (refusal : Refusal) : Bool := refusal.spelled.all Text.isWritable

/-- What a report of a refusal adds to its message. -/
def details : Refusal → Fields
  | textExpected field _ | integerExpected field _ | idOutOfRange field _ _
  | accountExpected field _ | amountNegative field _ => [("field", .string field)]
  | textTooLong field _ limit => [("field", .string field), ("limit", .int limit)]
  | creatorIdEmpty | supplyNotInteger | supplyOutOfRange .. | supplyZero => []
  | metadataNotObject _ | metadataUnreadable _ => [("field", .string "metadata")]
  | metadataMissing _ required => [("required", .list (required.map .string))]
  | methodUnknown _ available => [("available", .list (available.map .string))]
  | argumentsNotList method _ | argumentCount method _ _ _ => [("method", .string method)]
  | creatorTaken creator | notCreatorOwner _ creator => [("creator_id", .string creator)]
  | creatorsFull account limit | tokensFull account limit =>
    [("account", account.toValue), ("limit", .int limit)]
  | editionsFull creator limit => [("creator_id", .string creator), ("limit", .int limit)]
  | notEditionCreator creator edition =>
    [("creator_id", .string creator), ("launch_token_id", .int edition)]
  | editionNotFound edition | soldOut edition _ _ | creatorDisconnected _ edition =>
    [("launch_token_id", .int edition)]
  | notTokenOwner _ token | tokenNotFound token | notForSale token | alreadyOwned _ token
  | notListed token => [("token_id", .int token)]
  | exhausted _ counter => [("counter", .int counter)]
  | belowLaunchPrice _ price | belowListedPrice _ price => [("price", .int price)]
  | alreadyListed token price => [("token_id", .int token), ("price", .int price)]
  | cannotAfford amount _ | paymentFailed amount _ _ => [("required", .int amount)]

/-- The report of a refusal. -/
def report (refusal : Refusal) : Report :=
  .ofCode refusal.code refusal.message refusal.details

/-- The report of a refusal, if its message can be written. -/
def report? (refusal : Refusal) : Option Report :=
  if refusal.isWritable then some refusal.report else none

end Refusal

end EditionMarket
