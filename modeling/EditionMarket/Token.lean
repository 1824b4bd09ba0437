import EditionMarket.Edition

/-!
# Tokens

A token is one issued unit of an edition. It belongs to an account, and it is for sale exactly while
it has a price.
-/

namespace EditionMarket

/-- One issued unit of an edition. -/
structure Token where
  id : ItemId
  edition : ItemId
  creator : CreatorId
  owner : AccountId
  name : String
  price : Option Int
  mimeType : String
  uri : String
deriving DecidableEq

namespace Token

/-- The token that an edition issues: it carries the edition's description and has no price. -/
def issue (owner : AccountId) (id : ItemId) (edition : Edition) : Token :=
  { id := id
    edition := edition.id
    creator := edition.creator
    owner := owner
    name := edition.name
    price := none
    mimeType := edition.mimeType
    uri := edition.uri }

/-- The token as fields. -/
def fields (token : Token) : Fields :=
  [("id", .int token.id), ("launch_id", .int token.edition), ("creator", .string token.creator),
    ("owner", token.owner.toValue), ("name", .string token.name),
    ("price", .ofInt? token.price), ("mime_type", .string token.mimeType),
    ("metadata_uri", .string token.uri)]

/-- The names of the fields. -/
def fieldNames : List String :=
  ["id", "launch_id", "creator", "owner", "name", "price", "mime_type", "metadata_uri"]

/-- The price that a value gives: none for null, and else the number that the value is. -/
def price? : Value → Option (Option Int)
  | .null => some none
  | value => value.number?.map some

/-- The token of given fields. None may be left out, and there may be no other fields. -/
def ofFields? (fields : Fields) : Option Token := do
  guard (fields.within fieldNames)
  return {
    id := ← fields.number? "id"
    edition := ← fields.number? "launch_id"
    creator := ← fields.text? "creator"
    owner := ← (fields.get? "owner").bind AccountId.ofValue?
    name := ← fields.text? "name"
    price := ← (fields.get? "price").bind price?
    mimeType := ← fields.text? "mime_type"
    uri := ← fields.text? "metadata_uri" }

/-- The token with another value in a field, if it can have it there. -/
def withField? (token : Token) (name : String) (value : Value) : Option Token :=
  ofFields? (token.fields.put name value)

/-- A token is read back from its fields. -/
theorem ofFields?_fields (token : Token) : ofFields? token.fields = some token := by
  obtain ⟨id, edition, creator, owner, name, price, mimeType, uri⟩ := token
  cases owner <;> cases price <;> rfl

end Token

end EditionMarket
