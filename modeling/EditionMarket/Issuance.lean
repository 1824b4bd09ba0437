import EditionMarket.Registry
import EditionMarket.Store.Numbering

/-!
# Minting editions and issuing tokens

Creators mint editions, and tokens are issued from an edition as long as its supply lasts. None of
these programs asks who is calling.

Every program checks first, then makes room on a roster, then writes the record, and counts last.
-/

namespace EditionMarket.Issuance

/-- The edition of an id. -/
def get? (id : ItemId) : StoreM (Option Edition) := StoreM.fetch (.edition id)

/-- The edition of an id, which has to be there. -/
def require (id : ItemId) : StoreM Edition := do
  match ← get? id with
  | some edition => return edition
  | none => StoreM.refuse (.editionNotFound id)

/-- Changes an edition, if it is there. Tells whether it is. -/
def update (id : ItemId) (change : Edition → Edition) : StoreM Bool := do
  match ← get? id with
  | none => return false
  | some edition =>
    modify (·.write (.edition id) (some (change edition)))
    return true

/-- Mints an edition and answers with its number. -/
def mint (creator : CreatorId) (price : Int) (metadata : Metadata) : StoreM ItemId := do
  if metadata.supply = 0 then StoreM.refuse .supplyZero
  let id ← Numbering.nextEdition
  Family.editionsOf.push creator id fun limit => .refused (.editionsFull creator limit)
  StoreM.assign (.edition id) (some (Edition.mint id creator price metadata))
  Numbering.commitEdition id
  return id

/-- Issues a token of an edition to an account and answers with its number. -/
def issue (edition : ItemId) (receiver : AccountId) : StoreM ItemId := do
  let source ← require edition
  if source.isSoldOut then StoreM.refuse (.soldOut edition source.issued source.totalSupply)
  let id ← Numbering.nextToken
  Family.tokensOf.push receiver id fun limit => .refused (.tokensFull receiver limit)
  StoreM.assign (.token id) (some (Token.issue receiver id source))
  -- The edition was touched when it was looked up.
  modify (·.write (.edition edition) (some source.issueOne))
  Numbering.commitToken id
  return id

/-- Gives an edition another price. -/
def setPrice (id : ItemId) (price : Int) : StoreM Unit := do
  let edition ← require id
  modify (·.write (.edition id) (some { edition with price := price }))

/-- The account that owns the creator of an edition: nobody if there is no such edition, or if its
creator is disconnected. -/
def ownerOf (id : ItemId) : StoreM AccountId := do
  match ← get? id with
  | none => return .nobody
  | some edition => Registry.ownerOf edition.creator

/-- Refuses to go on unless a creator has minted an edition. -/
def ensureCreator (creator : CreatorId) (id : ItemId) : StoreM Unit := do
  match ← get? id with
  | none => StoreM.refuse (.notEditionCreator creator id)
  | some edition =>
    if edition.creator ≠ creator then StoreM.refuse (.notEditionCreator creator id)

end EditionMarket.Issuance
