import EditionMarket.Value

/-!
# Values that count as the same

Two values may differ in kind and still count as the same. Numbers are compared by what they stand
for: an integer, the number with a point that is equal to it, and, for one and zero, the truth value.
Two objects are the same if they have the same names with the same values, in whatever order.

`==` on values is this comparison; `=` is equality of kind, too.
-/

namespace EditionMarket.Value

/-- The exact number that a value stands for. -/
def amount? : Value → Option Decimal
  | .bool b => some ⟨if b then 1 else 0, 0⟩
  | .int n => some ⟨n, 0⟩
  | .decimal d => some d.exact
  | _ => none

mutual

/-- Whether two values count as the same. -/
def same : Value → Value → Bool
  | .null, .null => true
  | .string a, .string b => a = b
  | .list a, .list b => sameItems a b
  | .object a, .object b => a.length = b.length && sameFields a b
  | a, b =>
    match amount? a, amount? b with
    | some x, some y => x = y
    | _, _ => false

/-- Whether two lists have the same items in the same order. -/
def sameItems : List Value → List Value → Bool
  | [], [] => true
  | a :: as, b :: bs => same a b && sameItems as bs
  | _, _ => false

/-- Whether every field is in another object as well. -/
def sameFields : List (String × Value) → List (String × Value) → Bool
  | [], _ => true
  | (key, a) :: rest, other =>
    (match other.lookup key with
      | some b => same a b
      | none => false) && sameFields rest other

end

instance : BEq Value := ⟨same⟩

end EditionMarket.Value
