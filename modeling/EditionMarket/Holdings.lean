import EditionMarket.Store.Family

/-!
# Holding tokens

Tokens change hands, are priced, and are burned. None of these programs asks who is calling.
-/

namespace EditionMarket.Holdings

/-- The token of an id. -/
def get? (id : ItemId) : StoreM (Option Token) := StoreM.fetch (.token id)

/-- The token of an id, which has to be there. -/
def require (id : ItemId) : StoreM Token := do
  match ← get? id with
  | some token => return token
  | none => StoreM.refuse (.tokenNotFound id)

/-- Changes a token, if it is there. Tells whether it is. -/
def update (id : ItemId) (change : Token → Token) : StoreM Bool := do
  match ← get? id with
  | none => return false
  | some token =>
    modify (·.write (.token id) (some (change token)))
    return true

/-- Moves a token from one account to another. The token enters the receiver's roster before it
leaves the owner's, so that a receiver without room costs nobody anything. -/
def transfer (id : ItemId) (owner receiver : AccountId) : StoreM Unit := do
  let token ← require id
  Family.tokensOf.push receiver id fun limit => .refused (.tokensFull receiver limit)
  discard <| Family.tokensOf.remove owner id
  modify (·.write (.token id) (some { token with owner := receiver }))

/-- Gives a token another price, or none. -/
def setPrice (id : ItemId) (price : Option Int) : StoreM Unit := do
  let token ← require id
  modify (·.write (.token id) (some { token with price := price }))

/-- Destroys a token; its edition loses one unit of supply. -/
def burn (id : ItemId) : StoreM Unit := do
  let token ← require id
  match ← StoreM.fetch (.edition token.edition) with
  | none => throw (.breach (.editionMissing id token.edition))
  | some (edition : Edition) =>
    discard <| Family.tokensOf.remove token.owner id
    StoreM.assign (.token id) none
    modify (·.write (.edition token.edition) (some edition.burnOne))

/-- The account that owns a token: nobody if there is no such token. -/
def ownerOf (id : ItemId) : StoreM AccountId := do
  return ((← get? id).map Token.owner).getD .nobody

/-- The price of a token: none if there is no such token or it is not for sale. -/
def priceOf (id : ItemId) : StoreM (Option Int) := do
  return (← get? id).bind Token.price

/-- Refuses to go on unless an account owns a token. -/
def ensureOwner (account : AccountId) (id : ItemId) : StoreM Unit := do
  if (← ownerOf id) ≠ account then StoreM.refuse (.notTokenOwner account id)

end EditionMarket.Holdings
