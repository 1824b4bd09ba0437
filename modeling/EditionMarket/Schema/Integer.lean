import EditionMarket.Schema.Issue
import EditionMarket.Text.Blank
import EditionMarket.Text.Digits

/-!
# Integers among raw settings

Wherever an integer is wanted, a truth value counts as one or zero, a number with a point counts if it
is whole and lies between the integers of 64 bits, and a text counts if it spells an integer.

A text without needless characters spells an integer by a minus sign, perhaps, and digits without
needless zeros. What is needless is taken away first: blanks around it, a plus sign, zeros in front,
zeros after a point, and single underscores.
-/

namespace EditionMarket.Schema

/-! ## Texts -/

/-- Takes needless zeros off the front of a text, and underscores among them. One character is left in
front of a point and at the end. Before the first digit nothing else may stand, apart from a minus sign,
after which nothing is taken off. -/
def withoutZeros : List Char → Option (List Char)
  | [] => none
  | c :: rest =>
    if c = '-' ∨ ('1' ≤ c ∧ c ≤ '9') then some (c :: rest)
    else if c = '0' then dropZeros '0' rest
    else none
where
  /-- `last` stands right before the characters that are left. -/
  dropZeros (last : Char) : List Char → Option (List Char)
    | [] => some [last]
    | c :: rest =>
      if c = '0' ∨ c = '_' then dropZeros c rest
      else if '1' ≤ c ∧ c ≤ '9' then some (c :: rest)
      else if c = '.' then some (last :: c :: rest)
      else none

/-- Takes a point off a text if there is at least one zero after it and nothing else. -/
def withoutFraction (cs : List Char) : List Char :=
  let whole := cs.takeWhile (· ≠ '.')
  let fraction := cs.drop (whole.length + 1)
  if fraction ≠ [] ∧ fraction.all (· = '0') then whole else cs

/-- Takes the underscores out of a text, if each of them stands alone between two other characters. -/
def withoutUnderscores (cs : List Char) : List Char :=
  if (cs.splitOn '_').all (! ·.isEmpty) then cs.filter (· ≠ '_') else cs

/-- A text, stripped of blanks around it, without needless characters. -/
def withoutNeedless (cs : List Char) : Option (List Char) :=
  let unsigned? : Option (List Char) := match cs with
    | '+' :: '-' :: _ => none
    | '+' :: rest => some rest
    | cs => some cs
  unsigned?.bind fun cs => (withoutZeros cs).map fun cs => withoutUnderscores (withoutFraction cs)

/-- The integer that digits without a needless zero spell. Too many digits are an issue of their own,
whatever stands after them. -/
def readDigits (cs : List Char) : Except IssueKind Nat :=
  let digits := cs.takeWhile Char.isDigit
  if digits = [] ∨ (cs.head? = some '0' ∧ cs ≠ ['0']) then .error .notIntegerText
  else if Text.mostDigits < digits.length then .error .tooLarge
  else if digits ≠ cs then .error .notIntegerText
  else .ok (Text.number 10 cs)

/-- The integer that a text without needless characters spells. -/
def readInteger : List Char → Except IssueKind Int
  | '-' :: cs => (readDigits cs).map fun n => -(n : Int)
  | cs => (readDigits cs).map Int.ofNat

/-- The integer that a text spells. -/
def integerOfText (s : String) : Except IssueKind Int :=
  match withoutNeedless (Text.trim s.toList) with
  | some cs => readInteger cs
  | none => .error .notIntegerText

/-! ## Settings -/

/-- The integer that a number with a point is equal to. -/
def integerOfDecimal (d : Decimal) : Except IssueKind Int :=
  match d.exact.whole? with
  | none => .error .notWhole
  | some n => if -Int.pow 2 63 < n ∧ n < Int.pow 2 63 then .ok n else .error .tooLarge

/-- The integer that a raw setting stands for. -/
def integer : Raw → Except IssueKind Int
  | .bool b => .ok (if b then 1 else 0)
  | .int n => .ok n
  | .decimal d => integerOfDecimal d
  | .endless => .error .notFinite
  | .string s => integerOfText s
  | .garbled => .error .garbledText
  | .null | .moment | .other .. | .list _ | .object .. => .error .notInteger

/-- An integer above zero. -/
def positive (raw : Raw) : Checked { n : Nat // 0 < n } :=
  match integer raw with
  | .error kind => .wrong ⟨1, Nat.one_pos⟩ kind
  | .ok n => if h : 0 < n then ⟨⟨n.toNat, by omega⟩, []⟩ else .wrong ⟨1, Nat.one_pos⟩ .notPositive

/-- An integer that is not below zero. -/
def natural (raw : Raw) : Checked Nat :=
  match integer raw with
  | .error kind => .wrong 0 kind
  | .ok n => if 0 ≤ n then ⟨n.toNat, []⟩ else .wrong 0 .negative

end EditionMarket.Schema
