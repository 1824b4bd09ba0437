import EditionMarket.Refusal

/-!
# Checking arguments

Arguments arrive as values of no fixed shape. Each check answers with the typed argument, or with the
refusal that names what is wrong with it.
-/

namespace EditionMarket.Argument

/-! ## Limits -/

/-- The largest id of an edition or a token. -/
def largestId : Int := Int.pow 2 128 - 1

/-- The largest supply of an edition. -/
def largestSupply : Nat := Nat.pow 2 32 - 1

/-- The most bytes of a creator id: those of one label of a domain name. -/
def creatorIdBytes : Nat := 63

/-- The most bytes of an edition's name. -/
def nameBytes : Nat := 255

/-- The most bytes of a media type. -/
def mimeTypeBytes : Nat := 255

/-- The most bytes of a metadata address. -/
def uriBytes : Nat := 2048

/-! ## Checks -/

/-- A text of at most `limit` bytes. -/
def text (field : String) (limit : Nat) :
    Value → Except Refusal { s : String // s.utf8ByteSize ≤ limit }
  | .string s =>
    if h : s.utf8ByteSize ≤ limit then .ok ⟨s, h⟩
    else .error (.textTooLong field s.utf8ByteSize limit)
  | got => .error (.textExpected field got)

/-- A creator id: a text that is neither empty nor too long. -/
def creatorId (value : Value) : Except Refusal CreatorId := do
  let id ← text "creator_id" creatorIdBytes value
  if id.val = "" then .error .creatorIdEmpty else .ok id.val

/-- An id of an edition or a token: an integer between zero and the largest id. A truth value is no
integer. -/
def itemId (field : String) : Value → Except Refusal ItemId
  | .int id =>
    if 0 ≤ id ∧ id ≤ largestId then .ok id else .error (.idOutOfRange field id largestId)
  | got => .error (.integerExpected field got)

/-- An account that a caller names: a text that is not empty. -/
def account (field : String) : Value → Except Refusal AccountId
  | .string s => if s = "" then .error (.accountExpected field (.string s)) else .ok (.name s)
  | got => .error (.accountExpected field got)

/-- A price or a bid: an integer that is not negative. A truth value is no integer. -/
def amount (field : String) : Value → Except Refusal Int
  | .int n => if n < 0 then .error (.amountNegative field n) else .ok n
  | got => .error (.integerExpected field got)

end EditionMarket.Argument
