import EditionMarket.Argument

/-!
# Metadata

What a creator says about an edition when it is minted: its name, its media type, where its
description is found, and how many tokens it may have. Metadata within their limits are the only ones
there are.
-/

namespace EditionMarket

/-- What describes an edition. -/
structure Metadata where
  name : String
  mimeType : String
  uri : String
  supply : Nat
  name_le : name.utf8ByteSize ≤ Argument.nameBytes
  mimeType_le : mimeType.utf8ByteSize ≤ Argument.mimeTypeBytes
  uri_le : uri.utf8ByteSize ≤ Argument.uriBytes
  supply_le : supply ≤ Argument.largestSupply
deriving DecidableEq

namespace Metadata

/-- The names of the fields, in the order in which they are read. -/
def fieldNames : List String := ["name", "mime_type", "metadata_uri", "supply"]

/-- The metadata as fields. -/
def fields (m : Metadata) : Fields :=
  [("name", .string m.name), ("mime_type", .string m.mimeType), ("metadata_uri", .string m.uri),
    ("supply", .int m.supply)]

/-- A supply: an integer between zero and the largest supply. A truth value is no integer. -/
def checkSupply : Value → Except Refusal { n : Nat // n ≤ Argument.largestSupply }
  | .int n =>
    if h : 0 ≤ n ∧ n ≤ Argument.largestSupply then .ok ⟨n.toNat, Int.toNat_le.2 h.2⟩
    else .error (.supplyOutOfRange n Argument.largestSupply)
  | _ => .error .supplyNotInteger

/-- Checks the four fields in turn. -/
def check (name mimeType uri supply : Value) : Except Refusal Metadata := do
  let name ← Argument.text "name" Argument.nameBytes name
  let mimeType ← Argument.text "mime_type" Argument.mimeTypeBytes mimeType
  let uri ← Argument.text "metadata_uri" Argument.uriBytes uri
  let supply ← checkSupply supply
  return ⟨name, mimeType, uri, supply, name.2, mimeType.2, uri.2, supply.2⟩

/-- What reading one field of a mapping gives. -/
inductive Reading
  | found (value : Value)
  | missing
  | unreadable (reason : String)

/-- The value of a field, or the refusal if it cannot be had. -/
def Reading.get (field : String) : Reading → Except Refusal Value
  | .found value => .ok value
  | .missing => .error (.metadataMissing field fieldNames)
  | .unreadable reason => .error (.metadataUnreadable reason)

/-- Reads the four fields of a mapping, then checks them. -/
def ofMapping (read : String → Reading) : Except Refusal Metadata := do
  let name ← (read "name").get "name"
  let mimeType ← (read "mime_type").get "mime_type"
  let uri ← (read "metadata_uri").get "metadata_uri"
  let supply ← (read "supply").get "supply"
  check name mimeType uri supply

/-- Metadata from a value, which has to be an object. Fields of other names are ignored. -/
def ofValue : Value → Except Refusal Metadata
  | .object fields => ofMapping fun field =>
    match Listing.get? fields field with
    | some value => .found value
    | none => .missing
  | got => .error (.metadataNotObject got)

end Metadata

end EditionMarket
