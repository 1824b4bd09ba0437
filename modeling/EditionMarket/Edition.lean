import EditionMarket.Metadata

/-!
# Editions

An edition is a limited run of tokens. Issuing a token uses up one unit of the run; burning a token
moves one unit from the supply to what has been destroyed, so that the total never grows.

Main statement: `issued_issueOne`, issuing counts up by one below the largest supply.
-/

namespace EditionMarket

/-- A limited run of tokens. -/
structure Edition where
  id : ItemId
  creator : CreatorId
  name : String
  price : Int
  mimeType : String
  uri : String
  supply : Int
  issued : Int := 0
  destroyed : Int := 0
deriving DecidableEq

namespace Edition

/-- The edition that a creator mints. -/
def mint (id : ItemId) (creator : CreatorId) (price : Int) (metadata : Metadata) : Edition :=
  { id := id
    creator := creator
    name := metadata.name
    price := price
    mimeType := metadata.mimeType
    uri := metadata.uri
    supply := metadata.supply }

/-- How many tokens the edition may ever have: what is left of the supply and what was destroyed. -/
def totalSupply (edition : Edition) : Int :=
  min (edition.supply + edition.destroyed) Argument.largestSupply

/-- Whether every token of the edition has been issued. -/
def isSoldOut (edition : Edition) : Bool := edition.totalSupply ≤ edition.issued

/-- Counts a token that was issued. -/
def issueOne (edition : Edition) : Edition :=
  { edition with issued := min (edition.issued + 1) Argument.largestSupply }

/-- Moves one unit from the supply to what was destroyed. -/
def burnOne (edition : Edition) : Edition :=
  { edition with
    supply := max (edition.supply - 1) 0
    destroyed := min (edition.destroyed + 1) Argument.largestSupply }

/-- The edition as fields. -/
def fields (edition : Edition) : Fields :=
  [("id", .int edition.id), ("creator", .string edition.creator), ("name", .string edition.name),
    ("price", .int edition.price), ("mime_type", .string edition.mimeType),
    ("metadata_uri", .string edition.uri), ("supply", .int edition.supply),
    ("issued", .int edition.issued), ("destroyed", .int edition.destroyed)]

/-- The names of the fields. -/
def fieldNames : List String :=
  ["id", "creator", "name", "price", "mime_type", "metadata_uri", "supply", "issued", "destroyed"]

/-- The edition of given fields. The two counts are zero where they are left out; nothing else may
be, and there may be no other fields. -/
def ofFields? (fields : Fields) : Option Edition := do
  guard (fields.within fieldNames)
  let count := fun key => if (fields.get? key).isNone then some 0 else fields.number? key
  return {
    id := ← fields.number? "id"
    creator := ← fields.text? "creator"
    name := ← fields.text? "name"
    price := ← fields.number? "price"
    mimeType := ← fields.text? "mime_type"
    uri := ← fields.text? "metadata_uri"
    supply := ← fields.number? "supply"
    issued := ← count "issued"
    destroyed := ← count "destroyed" }

/-- The edition with another value in a field, if it can have it there. -/
def withField? (edition : Edition) (name : String) (value : Value) : Option Edition :=
  ofFields? (edition.fields.put name value)

/-- An edition is read back from its fields. -/
theorem ofFields?_fields (edition : Edition) : ofFields? edition.fields = some edition := by
  cases edition
  rfl

/-- Below the largest supply, issuing counts up by one. -/
theorem issued_issueOne {edition : Edition} (h : edition.issued < Argument.largestSupply) :
    edition.issueOne.issued = edition.issued + 1 := by
  simp only [issueOne]
  omega

end Edition

end EditionMarket
