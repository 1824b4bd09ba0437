import EditionMarket.Market

/-!
# Questions to a market

What a market answers about its store. Records are looked up like for work on them, so an open
transaction takes note of them; rosters and counters are merely looked at.
-/

namespace EditionMarket.Market

variable {σ : Type}

/-- The creator of an id. -/
def creator? (id : CreatorId) : MarketM σ (Option Creator) := Registry.get? id

/-- The ids of the creators that an account owns. -/
def creatorsOf (account : AccountId) : MarketM σ (List CreatorId) := Family.creatorsOf.items account

/-- The edition of an id. -/
def edition? (id : ItemId) : MarketM σ (Option Edition) := Issuance.get? id

/-- The ids of the editions that a creator has minted. -/
def editionsOf (creator : CreatorId) : MarketM σ (List ItemId) := Family.editionsOf.items creator

/-- The token of an id. -/
def token? (id : ItemId) : MarketM σ (Option Token) := Holdings.get? id

/-- The ids of the tokens that an account holds. -/
def tokensOf (account : AccountId) : MarketM σ (List ItemId) := Family.tokensOf.items account

/-- The id of the edition that was minted last. -/
def lastEdition : MarketM σ ItemId := do return (← get).store.contents.lastEdition

/-- The id of the token that was issued last. -/
def lastToken : MarketM σ ItemId := do return (← get).store.contents.lastToken

/-- The price of a token. -/
def priceOf (token : ItemId) : MarketM σ (Option Int) := Holdings.priceOf token

/-- The account that owns the creator of an edition. -/
def ownerOfEdition (edition : ItemId) : MarketM σ AccountId := Issuance.ownerOf edition

end EditionMarket.Market
