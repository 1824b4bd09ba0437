/-!
# Decimal numbers

A `Decimal` is a finite decimal fraction, `coefficient / 10 ^ places`. It is the exact form of every
number that is written with a decimal point. Two spellings of one number have one canonical form,
`Decimal.canonical`, whose coefficient ends in no needless zero.

`Decimal.text` writes a number with its digits around the point where the point falls near them,
and with an exponent otherwise.
-/

namespace EditionMarket

/-- The fraction `coefficient / 10 ^ places`. -/
structure Decimal where
  coefficient : Int
  places : Nat
deriving DecidableEq, Repr, Inhabited

namespace Decimal

/-! ## Canonical form -/

/-- Drops zeros at the end of the coefficient, one for each decimal place that they fill. -/
def dropZeros (coefficient : Int) : Nat → Decimal
  | 0 => ⟨coefficient, 0⟩
  | places + 1 =>
    if coefficient % 10 = 0 then dropZeros (coefficient / 10) places
    else ⟨coefficient, places + 1⟩

/-- The spelling of the number with the fewest decimal places. -/
def canonical (d : Decimal) : Decimal := dropZeros d.coefficient d.places

/-- The integer that the number is equal to, if it has no fractional part. -/
def whole? (d : Decimal) : Option Int :=
  let unit := Int.pow 10 d.places
  if d.coefficient % unit = 0 then some (d.coefficient / unit) else none

/-! ## Sums and products -/

/-- The sum of two numbers. -/
def add (a b : Decimal) : Decimal :=
  ⟨a.coefficient * Int.pow 10 b.places + b.coefficient * Int.pow 10 a.places, a.places + b.places⟩

/-- The product of two numbers. -/
def mul (a b : Decimal) : Decimal := ⟨a.coefficient * b.coefficient, a.places + b.places⟩

/-! ## Text -/

/-- The decimal digits of a natural number, most significant first. -/
def digits (n : Nat) : List Char := Nat.toDigits 10 n

/-- Where a number's text changes between its two notations. The point of a number with
digits `d₁d₂…` and value `0.d₁d₂… × 10 ^ p` is said to stand at `p`. -/
structure Layout where
  /-- Points at this place or before it are written with an exponent. -/
  below : Int
  /-- Points after this place are written with an exponent. -/
  above : Int
  /-- An exponent has at least this many digits. -/
  exponentDigits : Nat

/-- Numbers from one ten-thousandth up to sixteen digits before the point are written around
the point. -/
def Layout.standard : Layout := ⟨-4, 16, 2⟩

/-- `count` zeros. -/
def zeros (count : Nat) : List Char := List.replicate count '0'

/-- Digits around the point that stands at `point`; one digit at least stands on either side. -/
def positional (ds : List Char) (point : Int) : List Char :=
  if point ≤ 0 then '0' :: '.' :: (zeros (-point).toNat ++ ds)
  else
    let before := ds.take point.toNat
    let after := ds.drop point.toNat
    before ++ zeros (point.toNat - before.length) ++ '.' :: (if after.isEmpty then ['0'] else after)

/-- One digit before the point, and the power of ten after the letter `e`. -/
def scientific (layout : Layout) (ds : List Char) (point : Int) : List Char :=
  let mantissa := match ds with
    | [] => ['0']
    | [d] => [d]
    | d :: rest => d :: '.' :: rest
  let exponent := point - 1
  let size := digits exponent.natAbs
  mantissa ++ 'e' :: (if exponent < 0 then '-' else '+')
    :: (zeros (layout.exponentDigits - size.length) ++ size)

/-- The text of a number in a given layout. -/
def textIn (layout : Layout) (d : Decimal) : String :=
  let sign := if d.coefficient < 0 then ['-'] else []
  let all := digits d.coefficient.natAbs
  let point : Int := all.length - d.places
  let significant := (all.reverse.dropWhile (· = '0')).reverse
  if significant.isEmpty then "0.0"
  else if layout.below < point ∧ point ≤ layout.above then
    String.ofList (sign ++ positional significant point)
  else String.ofList (sign ++ scientific layout significant point)

/-- The text of a number. -/
def text (d : Decimal) : String := textIn .standard d

end Decimal

end EditionMarket
