import EditionMarket.Decimal.Nearest
import EditionMarket.Yaml.Moment

/-!
# What plain scalars mean

A scalar that stands in a document without quotes is null, a truth value, an integer, a number with a
point or a moment if it is spelled like one, and a text otherwise. Two marks stand for no value: the one
for merging another object, and the one for a default.
-/

namespace EditionMarket.Yaml

/-- What a scalar means. -/
inductive Scalar
  | null
  | bool (b : Bool)
  | int (n : Int)
  | decimal (d : Decimal)
  /-- A number that is not finite, and how it is shown. -/
  | endless (shown : String)
  /-- A date or a time, and how it is shown. -/
  | moment (shown : String)
  | text (s : String)
  /-- A text with something in it that is no character, and how it is shown. -/
  | garbled (shown : String)
  /-- The mark of an object to merge. -/
  | merge
  /-- The mark of a default. -/
  | default
deriving DecidableEq, Inhabited

/-! ## Words -/

/-- What the words mean that are no text. -/
def words : List (Scalar × List String) :=
  [(.null, ["", "~", "null", "Null", "NULL"]),
    (.bool true, ["yes", "Yes", "YES", "true", "True", "TRUE", "on", "On", "ON"]),
    (.bool false, ["no", "No", "NO", "false", "False", "FALSE", "off", "Off", "OFF"]),
    (.endless "inf", [".inf", ".Inf", ".INF", "+.inf", "+.Inf", "+.INF"]),
    (.endless "-inf", ["-.inf", "-.Inf", "-.INF"]),
    (.endless "nan", [".nan", ".NaN", ".NAN"]),
    (.merge, ["<<"]),
    (.default, ["="])]

/-- What a word means, if it is no text. -/
def word? (cs : List Char) : Option Scalar :=
  (words.find? fun entry => String.ofList cs ∈ entry.2).map Prod.fst

/-! ## Integers -/

/-- The sign of a number, and what follows the sign. -/
def signOf : List Char → Int × List Char
  | '-' :: cs => (-1, cs)
  | '+' :: cs => (1, cs)
  | cs => (1, cs)

/-- Whether a row has digits and underscores only. -/
def isRow (base : Nat) (cs : List Char) : Bool := cs.all fun c => c = '_' || Text.isDigitIn base c

/-- A row without its underscores. -/
def digitsOf (cs : List Char) : List Char := cs.filter (· ≠ '_')

/-- The number that a row stands for after the mark of its base. -/
def based (base : Nat) (cs : List Char) : Except Fault Nat :=
  let digits := digitsOf cs
  if digits = [] then .error (.noDigits base) else .ok (Text.number base digits)

/-- Whether a part of a number to the base of sixty is spelled like one: one digit, or two of which the
first is less than six. -/
def isSixtieth : List Char → Bool
  | [d] => d.isDigit
  | [t, d] => '0' ≤ t && t ≤ '5' && d.isDigit
  | _ => false

/-- A decimal row, with parts to the base of sixty after it. -/
def decimalRow (row : List Char) (parts : List (List Char)) : Except Fault Nat :=
  let digits := digitsOf row
  if Text.mostDigits < digits.length then .error (.overlong digits.length)
  else .ok (parts.foldl (fun n part => n * 60 + Text.number 10 part) (Text.number 10 digits))

/-- An integer without its sign, if the characters spell one: binary after `0b`, of sixteen digits after
`0x`, octal after `0`, and otherwise decimal, with colons between parts to the base of sixty. -/
def unsigned? : List Char → Option (Except Fault Nat)
  | ['0'] => some (.ok 0)
  | '0' :: 'b' :: cs => if cs ≠ [] ∧ isRow 2 cs then some (based 2 cs) else none
  | '0' :: 'x' :: cs => if cs ≠ [] ∧ isRow 16 cs then some (based 16 cs) else none
  | '0' :: cs => if isRow 8 cs then some (.ok (Text.number 8 (digitsOf cs))) else none
  | cs =>
    match cs.splitOn ':' with
    | row :: parts =>
      if row.head?.any Char.isDigit ∧ isRow 10 row ∧ parts.all isSixtieth then
        some (decimalRow row parts)
      else none
    | [] => none

/-- An integer, if the characters spell one. -/
def integer? (cs : List Char) : Option (Except Fault Int) :=
  let (sign, rest) := signOf cs
  (unsigned? rest).map fun found => found.map fun n => sign * n

/-! ## Numbers with a point -/

/-- The exponent after a number: a letter, a sign and digits. Where there is none it is zero. -/
def exponent? : List Char → Option Int
  | [] => some 0
  | letter :: sign :: digits =>
    if (letter = 'e' ∨ letter = 'E') ∧ digits ≠ [] ∧ digits.all Char.isDigit then
      if sign = '-' then some (-(Text.number 10 digits : Int))
      else if sign = '+' then some (Text.number 10 digits)
      else none
    else none
  | _ => none

/-- What is kept of the number with these digits around its point; a number that is not finite if
nothing is kept. -/
def pointed (sign : Int) (before after : List Char) (exponent : Int) : Scalar :=
  let after := digitsOf after
  let coefficient := sign * Text.number 10 (digitsOf before ++ after)
  match Decimal.ofPower? coefficient (exponent - after.length) with
  | some d => .decimal d
  | none => .endless (if sign < 0 then "-inf" else "inf")

/-- The number that parts to the base of sixty make up, the last of them first. Every step keeps what a
number can keep. -/
def sixtieths (weight : Decimal) (sum : Decimal) : List Decimal → Decimal
  | [] => sum
  | part :: rest =>
    sixtieths (weight.mul ⟨60, 0⟩) (sum.add (part.exact.mul weight.exact).exact).exact rest

/-- A number with a point whose whole part has parts to the base of sixty. -/
def sexagesimal (sign : Int) (parts : List (List Char)) (after : List Char) : Scalar :=
  let part := fun cs => (⟨Text.number 10 (digitsOf cs), 0⟩ : Decimal)
  let fraction := digitsOf after
  match parts.reverse with
  | [] => .null
  | last :: rest =>
    let seconds : Decimal := ⟨Text.number 10 (last ++ fraction), fraction.length⟩
    let sum := sixtieths ⟨1, 0⟩ ⟨0, 0⟩ (seconds :: rest.map part)
    match Decimal.nearest? ⟨sign * sum.coefficient, sum.places⟩ with
    | some d => .decimal d
    | none => .endless (if sign < 0 then "-inf" else "inf")

/-- A number with a point, if the characters spell one. -/
def decimal? (cs : List Char) : Option Scalar :=
  let (sign, unsigned) := signOf cs
  let before := unsigned.takeWhile (· ≠ '.')
  match unsigned.drop before.length with
  | '.' :: rest =>
    let after := rest.takeWhile fun c => c.isDigit || c = '_'
    let starts := fun part : List Char => part.head?.any Char.isDigit
    match before.splitOn ':' with
    | [row] =>
      -- A number that starts with its point has no sign.
      let wellFormed := isRow 10 row && (starts row || (unsigned = cs && row = [] && starts after))
      if wellFormed then (exponent? (rest.drop after.length)).map (pointed sign row after) else none
    | row :: parts =>
      if starts row ∧ isRow 10 row ∧ parts.all isSixtieth ∧ after = rest then
        some (sexagesimal sign (row :: parts) after)
      else none
    | [] => none
  | _ => none

/-! ## Scalars -/

/-- What a plain scalar means. -/
def Scalar.ofPlain (cs : List Char) : Except Fault Scalar :=
  match word? cs, integer? cs, decimal? cs, Moment.ofChars? cs with
  | some scalar, _, _, _ => .ok scalar
  | _, some found, _, _ => found.map .int
  | _, _, some scalar, _ => .ok scalar
  | _, _, _, some found => found.fault?.elim (.ok (.moment found.text)) .error
  | _, _, _, _ => .ok (.text (String.ofList cs))

end EditionMarket.Yaml
