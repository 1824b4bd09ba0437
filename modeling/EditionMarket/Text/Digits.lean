/-!
# Rows of digits

Digits of every base up to sixteen, and the numbers that rows of them stand for. An integer in decimal
digits is only read, and only written, up to a certain length.
-/

namespace EditionMarket.Text

/-- The value of a digit. -/
def digit? (c : Char) : Option Nat :=
  if '0' ≤ c ∧ c ≤ '9' then some (c.toNat - 48)
  else if 'a' ≤ c ∧ c ≤ 'f' then some (c.toNat - 87)
  else if 'A' ≤ c ∧ c ≤ 'F' then some (c.toNat - 55)
  else none

/-- Whether a character is a digit to some base. -/
def isDigitIn (base : Nat) (c : Char) : Bool := (digit? c).any (· < base)

/-- The number that a row of digits stands for, the first digits being `acc`. -/
def numberFrom (base : Nat) : Nat → List Char → Nat
  | acc, [] => acc
  | acc, c :: rest => numberFrom base (acc * base + (digit? c).getD 0) rest

/-- The number that a row of digits stands for. -/
def number (base : Nat) (cs : List Char) : Nat := numberFrom base 0 cs

/-- One more digit counts for itself and shifts the others by one place. -/
theorem number_concat (base : Nat) (cs : List Char) (c : Char) :
    number base (cs ++ [c]) = number base cs * base + (digit? c).getD 0 := by
  suffices ∀ acc, numberFrom base acc (cs ++ [c]) = numberFrom base acc cs * base
      + (digit? c).getD 0 from this 0
  induction cs with
  | nil => intro acc; rfl
  | cons d rest ih => intro acc; exact ih _

/-- The most decimal digits of an integer that is read or written. -/
def mostDigits : Nat := 4300

/-- What is said about an integer of more digits that is to be read. -/
def tooManyDigits (count : Nat) : String :=
  s!"Exceeds the limit ({mostDigits} digits) for integer string conversion: value has {count} digits; "
    ++ "use sys.set_int_max_str_digits() to increase the limit"

/-- Whether an integer has few enough decimal digits to be written. -/
def isWritable (n : Int) : Bool := n.natAbs < Nat.pow 10 mostDigits

/-- What is said about an integer of more digits that is to be written. -/
def tooLongToWrite : String :=
  s!"Exceeds the limit ({mostDigits} digits) for integer string conversion; "
    ++ "use sys.set_int_max_str_digits() to increase the limit"

end EditionMarket.Text
