import EditionMarket.Text.Digits
import EditionMarket.Value

/-!
# Tokens of JSON

A text is cut into tokens by an automaton that reads one character at a time. Its state, `Mode`,
says which token is open. Characters of a string are collected as units of UTF-16, so that two
escaped surrogates join to one character at its end.

Not everything that may be written has a value of its own: a surrogate that stands alone is taken as
the replacement character, and a number that is not finite as null.
-/

namespace EditionMarket.Json

/-- A token: a bracket, a mark, or a value without parts. -/
inductive Token
  | openList
  | closeList
  | openObject
  | closeObject
  | comma
  | colon
  | atom (value : Value)
  /-- An integer of more digits than are read. -/
  | overlong (digits : Nat)
deriving DecidableEq

/-! ## Strings -/

/-- What stands for a surrogate without its other half. -/
def replacement : Char := '\ufffd'

/-- The characters of a string, from code points and UTF-16 units. -/
def joinUnits : List Nat → List Char
  | [] => []
  | unit :: rest =>
    if 0xD800 ≤ unit ∧ unit < 0xDC00 then
      match rest with
      | low :: after =>
        if 0xDC00 ≤ low ∧ low < 0xE000 then
          Char.ofNat (0x10000 + (unit - 0xD800) * 0x400 + (low - 0xDC00)) :: joinUnits after
        else replacement :: joinUnits (low :: after)
      | [] => [replacement]
    else if 0xDC00 ≤ unit ∧ unit < 0xE000 then replacement :: joinUnits rest
    else Char.ofNat unit :: joinUnits rest

/-- The unit that a one-letter escape stands for. -/
def shortEscape? : Char → Option Nat
  | '"' => some 34
  | '\\' => some 92
  | '/' => some 47
  | 'b' => some 8
  | 'f' => some 12
  | 'n' => some 10
  | 'r' => some 13
  | 't' => some 9
  | _ => none

/-! ## Numbers and words -/

/-- The digits before the point, and what follows them. After a zero in front no digit belongs to the
number. -/
def wholePart : List Char → List Char × List Char
  | '0' :: rest => (['0'], rest)
  | cs => cs.span Char.isDigit

/-- The digits after the point, and what follows them. -/
def fractionPart (cs : List Char) : List Char × List Char :=
  match cs with
  | '.' :: rest => if rest.head?.any Char.isDigit then rest.span Char.isDigit else ([], cs)
  | _ => ([], cs)

/-- The exponent, and what follows it: a letter, perhaps a sign, and at least one digit. -/
def exponentPart (cs : List Char) : Option Int × List Char :=
  match cs with
  | letter :: rest =>
    let (sign, rest) : Int × List Char := match rest with
      | '-' :: rest => (-1, rest)
      | '+' :: rest => (1, rest)
      | rest => (1, rest)
    let (digits, rest) := rest.span Char.isDigit
    if (letter = 'e' ∨ letter = 'E') ∧ digits ≠ [] then (some (sign * Text.number 10 digits), rest)
    else (none, cs)
  | [] => (none, cs)

/-- An unsigned number. Digits alone are an integer; a fraction or an exponent makes a decimal. An
integer of too many digits is told even if no number ends where the characters end. -/
def magnitude? (sign : Int) (cs : List Char) : Option Token :=
  let (whole, rest) := wholePart cs
  let (fraction, rest) := fractionPart rest
  let (exponent, rest) := exponentPart rest
  let integral := fraction = [] && exponent = none
  if integral && Text.mostDigits < whole.length then some (.overlong whole.length)
  else if whole = [] ∨ rest ≠ [] then none
  else
    let coefficient := sign * Text.number 10 (whole ++ fraction)
    if integral then some (.atom (.int coefficient))
    else
      let kept := Decimal.ofPower? coefficient (exponent.getD 0 - fraction.length)
      some (.atom (kept.elim .null .decimal))

/-- A number. -/
def number? : List Char → Option Token
  | '-' :: cs => magnitude? (-1) cs
  | cs => magnitude? 1 cs

/-- The values that are written as words. -/
def words : List (String × Value) :=
  [("null", .null), ("true", .bool true), ("false", .bool false), ("NaN", .null),
    ("Infinity", .null), ("-Infinity", .null)]

/-- A word. -/
def word? (cs : List Char) : Option Token := (words.lookup (String.ofList cs)).map .atom

/-! ## The automaton -/

/-- Which token is open, with what it holds so far, backwards. -/
inductive Mode
  | between
  | text (units : List Nat)
  | escaped (units : List Nat)
  | hexadecimal (units : List Nat) (value missing : Nat)
  | number (cs : List Char)
  | word (cs : List Char)

/-- The tokens read so far, backwards, and the mode. -/
structure Lexer where
  tokens : List Token := []
  mode : Mode := .between

namespace Lexer

/-- Whether a character can belong to a number. -/
def inNumber (c : Char) : Bool :=
  c.isDigit || c == '-' || c == '+' || c == '.' || c == 'e' || c == 'E'

/-- Starts with a character that belongs to no open token. -/
def start (tokens : List Token) (c : Char) : Option Lexer :=
  if c = ' ' ∨ c = '\t' ∨ c = '\n' ∨ c = '\r' then some ⟨tokens, .between⟩
  else if c = '[' then some ⟨.openList :: tokens, .between⟩
  else if c = ']' then some ⟨.closeList :: tokens, .between⟩
  else if c = '\x7b' then some ⟨.openObject :: tokens, .between⟩
  else if c = '\x7d' then some ⟨.closeObject :: tokens, .between⟩
  else if c = ',' then some ⟨.comma :: tokens, .between⟩
  else if c = ':' then some ⟨.colon :: tokens, .between⟩
  else if c = '"' then some ⟨tokens, .text []⟩
  else if c.isDigit ∨ c = '-' then some ⟨tokens, .number [c]⟩
  else if c.isAlpha then some ⟨tokens, .word [c]⟩
  else none

/-- The tokens after an open number or word has ended. -/
def finish (lexer : Lexer) : Option (List Token) :=
  match lexer.mode with
  | .between => some lexer.tokens
  | .number cs => (number? cs.reverse).map (· :: lexer.tokens)
  | .word cs => (word? cs.reverse).map (· :: lexer.tokens)
  | _ => none

/-- Reads one character. -/
def step (lexer : Lexer) (c : Char) : Option Lexer :=
  match lexer.mode with
  | .between => start lexer.tokens c
  | .text units =>
    if c = '"' then
      some ⟨.atom (.string (String.ofList (joinUnits units.reverse))) :: lexer.tokens, .between⟩
    else if c = '\\' then some ⟨lexer.tokens, .escaped units⟩
    else if c.toNat < 32 then none
    else some ⟨lexer.tokens, .text (c.toNat :: units)⟩
  | .escaped units =>
    if c = 'u' then some ⟨lexer.tokens, .hexadecimal units 0 4⟩
    else (shortEscape? c).map fun unit => ⟨lexer.tokens, .text (unit :: units)⟩
  | .hexadecimal units value missing =>
    (Text.digit? c).map fun digit =>
      if missing ≤ 1 then ⟨lexer.tokens, .text ((16 * value + digit) :: units)⟩
      else ⟨lexer.tokens, .hexadecimal units (16 * value + digit) (missing - 1)⟩
  | .number cs =>
    if inNumber c then some ⟨lexer.tokens, .number (c :: cs)⟩
    -- A sign may also stand before a word.
    else if cs = ['-'] ∧ c = 'I' then some ⟨lexer.tokens, .word [c, '-']⟩
    else lexer.finish.bind (start · c)
  | .word cs =>
    if c.isAlpha then some ⟨lexer.tokens, .word (c :: cs)⟩
    else lexer.finish.bind (start · c)

/-- Reads characters as long as they form tokens. Answers with the tokens, and whether the characters
form tokens up to the end. -/
def run (lexer : Lexer) : List Char → List Token × Bool
  | [] => ((lexer.finish.getD lexer.tokens).reverse, lexer.finish.isSome)
  | c :: rest =>
    match lexer.step c with
    | some next => next.run rest
    | none => ((lexer.finish.getD lexer.tokens).reverse, false)

end Lexer

end EditionMarket.Json
