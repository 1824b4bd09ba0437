import EditionMarket.Text.Quoted
import EditionMarket.Value

/-!
# Writing JSON

A value is written on one line, with a blank after every comma and colon. Only the printable
characters of ASCII stand for themselves in a string; every other character is escaped, by its UTF-16
units where it has no short escape.
-/

namespace EditionMarket.Json

/-! ## Strings -/

/-- The UTF-16 units of a character. -/
def units (c : Char) : List Nat :=
  if c.toNat < 0x10000 then [c.toNat]
  else [0xD800 + (c.toNat - 0x10000) / 0x400, 0xDC00 + (c.toNat - 0x10000) % 0x400]

/-- How a character is written inside a string. -/
def escape (c : Char) : List Char :=
  if c = '"' ∨ c = '\\' then ['\\', c]
  else if c = '\n' then ['\\', 'n']
  else if c = '\r' then ['\\', 'r']
  else if c = '\t' then ['\\', 't']
  else if c = '\x0c' then ['\\', 'f']
  else if c = '\x08' then ['\\', 'b']
  else if 32 ≤ c.toNat ∧ c.toNat < 127 then [c]
  else (units c).flatMap fun unit => '\\' :: 'u' :: Text.hexDigits unit 4

/-- A string. -/
def writeString (s : String) : List Char := '"' :: s.toList.flatMap escape ++ ['"']

/-! ## Values -/

/-- An integer. -/
def writeInt (n : Int) : List Char :=
  if n < 0 then '-' :: Decimal.digits n.natAbs else Decimal.digits n.natAbs

mutual

/-- A value. -/
def write : Value → List Char
  | .null => "null".toList
  | .bool true => "true".toList
  | .bool false => "false".toList
  | .int n => writeInt n
  | .decimal d => d.text.toList
  | .string s => writeString s
  | .list items => '[' :: writeItems items ++ [']']
  | .object fields => '\x7b' :: writeFields fields ++ ['\x7d']

/-- The items of a list, parted by commas. -/
def writeItems : List Value → List Char
  | [] => []
  | [item] => write item
  | item :: next :: rest => write item ++ ',' :: ' ' :: writeItems (next :: rest)

/-- The fields of an object, parted by commas. -/
def writeFields : List (String × Value) → List Char
  | [] => []
  | [(key, value)] => writeString key ++ ':' :: ' ' :: write value
  | (key, value) :: next :: rest =>
    writeString key ++ ':' :: ' ' :: write value ++ ',' :: ' ' :: writeFields (next :: rest)

end

/-- The text of a value. -/
def render (value : Value) : String := String.ofList (write value)

end EditionMarket.Json
