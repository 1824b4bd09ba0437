/-!
# Codes and categories of refusals

A refusal carries a code that a program can act on. Codes fall into categories by what stands in the
way of the call.
-/

namespace EditionMarket

/-- What kind of thing stands in the way of a call. -/
inductive Category
  /-- The caller gave malformed input. -/
  | validation
  /-- The caller does not control the record. -/
  | authorization
  /-- The id is already registered. -/
  | conflict
  /-- The edition or token is absent. -/
  | notFound
  /-- A roster is full. -/
  | capacity
  /-- An id counter has reached its ceiling. -/
  | exhaustion
  /-- The state of a listing or of a supply forbids the call. -/
  | market
  /-- The payer cannot cover the bid. -/
  | funds
deriving DecidableEq, Repr

namespace Category

/-- All categories. -/
def all : List Category :=
  [validation, authorization, conflict, notFound, capacity, exhaustion, market, funds]

/-- The text of a category. -/
def text : Category → String
  | validation => "validation"
  | authorization => "authorization"
  | conflict => "conflict"
  | notFound => "not_found"
  | capacity => "capacity"
  | exhaustion => "exhaustion"
  | market => "market"
  | funds => "funds"

end Category

/-- Why a call is refused. -/
inductive Code
  | invalidArgument
  | zeroSupply
  | notOwner
  | creatorTaken
  | notFound
  | creatorsFull
  | editionsFull
  | tokensFull
  | editionsExhausted
  | tokensExhausted
  | soldOut
  | notForSale
  | unavailable
  | notListed
  | alreadyListed
  | bidTooLow
  | toSelf
  | insufficientFunds
deriving DecidableEq, Repr

namespace Code

/-- All codes. -/
def all : List Code :=
  [invalidArgument, zeroSupply, notOwner, creatorTaken, notFound, creatorsFull, editionsFull,
    tokensFull, editionsExhausted, tokensExhausted, soldOut, notForSale, unavailable, notListed,
    alreadyListed, bidTooLow, toSelf, insufficientFunds]

/-- The text of a code. -/
def text : Code → String
  | invalidArgument => "invalid_argument"
  | zeroSupply => "zero_supply"
  | notOwner => "not_owner"
  | creatorTaken => "creator_account_taken"
  | notFound => "token_not_found"
  | creatorsFull => "max_creator_accounts_reached"
  | editionsFull => "max_launch_tokens_reached"
  | tokensFull => "max_tokens_reached"
  | editionsExhausted => "launch_tokens_overflow"
  | tokensExhausted => "tokens_overflow"
  | soldOut => "token_sold_out"
  | notForSale => "token_not_for_sale"
  | unavailable => "token_unavailable"
  | notListed => "token_not_listed"
  | alreadyListed => "token_already_listed"
  | bidTooLow => "bid_price_too_low"
  | toSelf => "transfer_to_self"
  | insufficientFunds => "insufficient_funds"

/-- The text of a code, read as words. -/
def words (code : Code) : String := code.text.map fun c => if c = '_' then ' ' else c

/-- The category of a code. -/
def category : Code → Category
  | invalidArgument | zeroSupply => .validation
  | notOwner => .authorization
  | creatorTaken => .conflict
  | notFound => .notFound
  | creatorsFull | editionsFull | tokensFull => .capacity
  | editionsExhausted | tokensExhausted => .exhaustion
  | soldOut | notForSale | unavailable | notListed | alreadyListed | bidTooLow | toSelf => .market
  | insufficientFunds => .funds

/-- The code with a given text. -/
def ofText? (s : String) : Option Code := all.find? (·.text = s)

/-- Every code is found by its text. -/
theorem ofText?_text (code : Code) : ofText? code.text = some code := by
  cases code <;> decide

/-- Different codes have different texts. -/
theorem eq_of_text_eq {a b : Code} (h : a.text = b.text) : a = b := by
  have hfound := ofText?_text a
  rw [h, ofText?_text b] at hfound
  exact (Option.some.inj hfound).symm

end Code

end EditionMarket
