import EditionMarket.Decimal

/-!
# The decimal kept by a binary number of 64 bits

A number written with a decimal point is kept with 53 significant bits. `Decimal.nearest?` answers
with the decimal that such a number is read back as: of all decimals with the fewest digits that
round to the same binary number, the one closest to it. `Decimal.exact` is the binary number itself,
with all its digits. All of it is exact arithmetic on natural numbers.
-/

namespace EditionMarket.Decimal

/-! ## Rounding to binary -/

/-- The quotient of two natural numbers rounded to the nearest, a tie going to the even one. -/
def roundQuotient (num den : Nat) : Nat :=
  let quotient := num / den
  let rest := num % den
  if 2 * rest < den then quotient
  else if 2 * rest > den then quotient + 1
  else if quotient % 2 = 0 then quotient else quotient + 1

/-- `num / den` divided by `2 ^ e`, as a fraction. -/
def overPowerOfTwo (num den : Nat) (e : Int) : Nat × Nat :=
  if 0 ≤ e then (num, den * Nat.pow 2 e.toNat) else (num * Nat.pow 2 (-e).toNat, den)

/-- The exponent of the last of 53 significant bits of `num / den`, and at least the exponent of
the smallest positive binary number. -/
def lastBit (num den : Nat) : Int :=
  let guess : Int := (num.log2 : Int) - (den.log2 : Int) - 52
  let (n, d) := overPowerOfTwo num den guess
  let exponent := if n < Nat.pow 2 52 * d then guess - 1
    else if Nat.pow 2 53 * d ≤ n then guess + 1 else guess
  max exponent (-1074)

/-- A positive binary number: `significand * 2 ^ exponent`. -/
structure Binary where
  significand : Nat
  exponent : Int

/-- The binary number nearest to the positive fraction `num / den`. -/
def toBinary (num den : Nat) : Binary :=
  let e := lastBit num den
  let (n, d) := overPowerOfTwo num den e
  let m := roundQuotient n d
  -- Rounding up may need one bit more; then all bits but the first are zero.
  if m = Nat.pow 2 53 then ⟨Nat.pow 2 52, e + 1⟩ else ⟨m, e⟩

/-! ## Fewest digits -/

/-- A fraction of natural numbers. -/
structure Ratio where
  num : Nat
  den : Nat

/-- Whether one fraction is at most another. -/
def Ratio.le (a b : Ratio) : Bool := a.num * b.den ≤ b.num * a.den

/-- Whether one fraction is less than another. -/
def Ratio.lt (a b : Ratio) : Bool := a.num * b.den < b.num * a.den

/-- The distance of two fractions. -/
def Ratio.distance (a b : Ratio) : Ratio :=
  let x := a.num * b.den
  let y := b.num * a.den
  ⟨if x ≤ y then y - x else x - y, a.den * b.den⟩

/-- `quarters / 4 * 2 ^ e`. -/
def Binary.quarters (quarters : Nat) (e : Int) : Ratio :=
  if 0 ≤ e then ⟨quarters * Nat.pow 2 e.toNat, 4⟩ else ⟨quarters, 4 * Nat.pow 2 (-e).toNat⟩

/-- The binary number itself. -/
def Binary.value (b : Binary) : Ratio := quarters (4 * b.significand) b.exponent

/-- The least number that rounds to `b`. Below a power of two the binary numbers lie twice as
dense. -/
def Binary.low (b : Binary) : Ratio :=
  let step := if b.significand = Nat.pow 2 52 ∧ -1074 < b.exponent then 1 else 2
  quarters (4 * b.significand - step) b.exponent

/-- The greatest number that rounds to `b`. -/
def Binary.high (b : Binary) : Ratio := quarters (4 * b.significand + 2) b.exponent

/-- Whether a number rounds to `b`; the two ends do if the significand is even. -/
def Binary.keeps (b : Binary) (r : Ratio) : Bool :=
  if b.significand % 2 = 0 then b.low.le r && r.le b.high else b.low.lt r && r.lt b.high

/-- The point of a positive fraction: the least `p` with `r < 10 ^ p`. -/
def Ratio.point (r : Ratio) : Int :=
  let guess : Int := ((digits r.num).length : Int) - ((digits r.den).length : Int)
  let reaches := if 0 ≤ guess then r.den * Nat.pow 10 guess.toNat ≤ r.num
    else r.den ≤ r.num * Nat.pow 10 (-guess).toNat
  if reaches then guess + 1 else guess

/-- `n * 10 ^ power` as a fraction. -/
def Ratio.ofPower (n : Nat) (power : Int) : Ratio :=
  if 0 ≤ power then ⟨n * Nat.pow 10 power.toNat, 1⟩ else ⟨n, Nat.pow 10 (-power).toNat⟩

/-- The number of whole units `10 ^ power` in a fraction. -/
def Ratio.units (r : Ratio) (power : Int) : Nat :=
  if 0 ≤ power then r.num / (r.den * Nat.pow 10 power.toNat)
  else r.num * Nat.pow 10 (-power).toNat / r.den

/-- The multiple of `10 ^ power` that rounds to `b` and is nearest to it, if there is one: it is
one of the two next to `b`, and the even one if both are equally near. -/
def Binary.onGrid? (b : Binary) (power : Int) : Option Nat :=
  let below := b.value.units power
  let above := below + 1
  let lower := Ratio.ofPower below power
  let upper := Ratio.ofPower above power
  match b.keeps lower, b.keeps upper with
  -- Of two that are equally near the even one is taken.
  | true, true =>
    let down := b.value.distance lower
    let up := b.value.distance upper
    if up.lt down || (below % 2 = 1 && up.le down) then some above else some below
  | true, false => some below
  | false, true => some above
  | false, false => none

/-- Tries grids of one more digit each, from `used + 1` digits on. -/
def Binary.fewest (b : Binary) (point : Int) (used : Nat) : Nat → Decimal
  | 0 => ⟨0, 0⟩
  | tries + 1 =>
    let power := point - (used + 1)
    match b.onGrid? power with
    | some n =>
      if 0 ≤ power then ⟨n * Nat.pow 10 power.toNat, 0⟩ else canonical ⟨n, (-power).toNat⟩
    | none => b.fewest point (used + 1) tries

/-- The decimal with the fewest digits that rounds to `b`; 17 digits always suffice. -/
def Binary.shortest (b : Binary) : Decimal := b.fewest b.value.point 0 17

/-! ## What is kept of a decimal -/

/-- All digits of a binary number. -/
def Binary.exact (b : Binary) : Decimal :=
  if 0 ≤ b.exponent then ⟨b.significand * Nat.pow 2 b.exponent.toNat, 0⟩
  else canonical ⟨b.significand * Nat.pow 5 (-b.exponent).toNat, (-b.exponent).toNat⟩

/-- The exponent of the last bit of the greatest numbers that are kept. -/
def greatestLastBit : Int := 971

/-- What is kept of the magnitude of a decimal, unless it lies beyond all numbers that are kept. -/
def binary? (d : Decimal) : Option Binary :=
  let b := toBinary d.coefficient.natAbs (Nat.pow 10 d.places)
  if b.exponent ≤ greatestLastBit then some b else none

/-- A magnitude with the sign of `d`. -/
def signed (d magnitude : Decimal) : Decimal :=
  if d.coefficient < 0 then ⟨-magnitude.coefficient, magnitude.places⟩ else magnitude

/-- The shortest decimal for what is kept of `d`, unless `d` lies beyond all numbers that are
kept. -/
def nearest? (d : Decimal) : Option Decimal :=
  d.binary?.map fun b => if b.significand = 0 then ⟨0, 0⟩ else d.signed b.shortest

/-- All digits of what is kept of `d`. A number beyond those that are kept stays as it is. -/
def exact (d : Decimal) : Decimal :=
  match d.binary? with
  | some b => d.signed b.exact
  | none => d

/-- More digits before the point than any number has that is kept, and more zeros after it. -/
def farthestPoint : Nat := 400

/-- What is kept of `coefficient * 10 ^ power`, unless it lies beyond all numbers that are kept. The
point is looked at first: far to the left there is only zero, and far to the right nothing is kept. -/
def ofPower? (coefficient : Int) (power : Int) : Option Decimal :=
  let point : Int := (digits coefficient.natAbs).length + power
  if coefficient = 0 ∨ point < -farthestPoint then some ⟨0, 0⟩
  else if (farthestPoint : Int) < point then none
  else if 0 ≤ power then nearest? ⟨coefficient * Int.pow 10 power.toNat, 0⟩
  else nearest? ⟨coefficient, (-power).toNat⟩

end EditionMarket.Decimal
