import EditionMarket.Table
import EditionMarket.Value.Display

/-!
# Accounts

An account is what a host calls it: a name, a number, nothing at all, or anything else that a host can
tell from all others, such as a pair of names. The account called nothing is an account like every other
for those who hold something, but it also marks what has no owner. Accounts are ordered: nobody first,
then the numbers, then the names by code point, then the others by how they read.
-/

namespace EditionMarket

/-- A reference to an account. -/
inductive AccountId
  | nobody
  | number (n : Int)
  | name (s : String)
  /-- Something of another kind, known by how it reads. -/
  | other (shown : String)
deriving DecidableEq, Inhabited

namespace AccountId

/-! ## Order -/

/-- The order of accounts. -/
def cmp : AccountId → AccountId → Ordering
  | .nobody, .nobody => .eq
  | .nobody, _ => .lt
  | .number _, .nobody => .gt
  | .number a, .number b => compare a b
  | .number _, _ => .lt
  | .name _, .nobody => .gt
  | .name _, .number _ => .gt
  | .name a, .name b => compare a b
  | .name _, .other _ => .lt
  | .other a, .other b => compare a b
  | .other _, _ => .gt

instance : Ord AccountId := ⟨cmp⟩

instance : Std.OrientedOrd AccountId where
  eq_swap {a b} := by
    change cmp a b = (cmp b a).swap
    cases a <;> cases b <;> simp only [cmp, Ordering.swap]
    case number.number a b =>
      exact (inferInstance : Std.OrientedOrd Int).eq_swap
    case name.name a b | other.other a b =>
      exact (inferInstance : Std.OrientedOrd String).eq_swap

instance : Std.TransOrd AccountId where
  isLE_trans {a b c} := by
    change (cmp a b).isLE → (cmp b c).isLE → (cmp a c).isLE
    cases a <;> cases b <;> cases c <;> simp [cmp]
    case number.number.number a b c =>
      exact (inferInstance : Std.TransOrd Int).isLE_trans
    case name.name.name a b c | other.other.other a b c =>
      exact (inferInstance : Std.TransOrd String).isLE_trans

instance : Std.LawfulEqOrd AccountId where
  compare_self {a} := by
    cases a with
    | nobody => rfl
    | number n => exact (inferInstance : Std.ReflOrd Int).compare_self
    | name s | other s => exact (inferInstance : Std.ReflOrd String).compare_self
  eq_of_compare {a b} h := by
    change cmp a b = .eq at h
    cases a <;> cases b <;> simp only [cmp, reduceCtorEq] at h
    case nobody.nobody => rfl
    case number.number a b =>
      exact congrArg _ ((inferInstance : Std.LawfulEqOrd Int).eq_of_compare h)
    case name.name a b | other.other a b =>
      exact congrArg _ ((inferInstance : Std.LawfulEqOrd String).eq_of_compare h)

/-! ## Values and text -/

/-- The account as a value. There is no value of another kind, so there it is a list of how the account
reads. -/
def toValue : AccountId → Value
  | .nobody => .null
  | .number n => .int n
  | .name s => .string s
  | .other shown => .list [.string shown]

/-- The account that a value stands for: nobody for null, the name or the number that the value is, or one
of another kind. -/
def ofValue? : Value → Option AccountId
  | .null => some .nobody
  | .string s => some (.name s)
  | .list [.string shown] => some (.other shown)
  | value => value.number?.map .number

/-- The value of an account stands for it. -/
@[simp] theorem ofValue?_toValue (a : AccountId) : ofValue? a.toValue = some a := by
  cases a <;> rfl

/-- The account inside a message. -/
def text : AccountId → String
  | .other shown => shown
  | a => a.toValue.plain

end AccountId

end EditionMarket
