import EditionMarket.Decimal.Nearest
import EditionMarket.Listing

/-!
# Values

Arguments of calls, event payloads and metadata are values of no fixed shape. `Value` is their common
type. An object is a listing of its fields.
-/

namespace EditionMarket

/-- A value of no fixed shape. -/
inductive Value
  | null
  | bool (b : Bool)
  | int (n : Int)
  | decimal (d : Decimal)
  | string (s : String)
  | list (items : List Value)
  | object (fields : List (String × Value))
deriving Inhabited

/-- The fields of an object, in order. -/
abbrev Fields := Listing String Value

namespace Value

/-! ## Equality -/

mutual

/-- Decides whether two values are equal. -/
def decEq : (a b : Value) → Decidable (a = b)
  | .null, .null => isTrue rfl
  | .bool a, .bool b => if h : a = b then isTrue (h ▸ rfl) else isFalse (by simpa using h)
  | .int a, .int b => if h : a = b then isTrue (h ▸ rfl) else isFalse (by simpa using h)
  | .decimal a, .decimal b => if h : a = b then isTrue (h ▸ rfl) else isFalse (by simpa using h)
  | .string a, .string b => if h : a = b then isTrue (h ▸ rfl) else isFalse (by simpa using h)
  | .list a, .list b =>
    match decEqItems a b with
    | isTrue h => isTrue (h ▸ rfl)
    | isFalse h => isFalse (by simpa using h)
  | .object a, .object b =>
    match decEqFields a b with
    | isTrue h => isTrue (h ▸ rfl)
    | isFalse h => isFalse (by simpa using h)
  | .null, .bool _ | .null, .int _ | .null, .decimal _ | .null, .string _ | .null, .list _
  | .null, .object _ => isFalse nofun
  | .bool _, .null | .bool _, .int _ | .bool _, .decimal _ | .bool _, .string _
  | .bool _, .list _ | .bool _, .object _ => isFalse nofun
  | .int _, .null | .int _, .bool _ | .int _, .decimal _ | .int _, .string _ | .int _, .list _
  | .int _, .object _ => isFalse nofun
  | .decimal _, .null | .decimal _, .bool _ | .decimal _, .int _ | .decimal _, .string _
  | .decimal _, .list _ | .decimal _, .object _ => isFalse nofun
  | .string _, .null | .string _, .bool _ | .string _, .int _ | .string _, .decimal _
  | .string _, .list _ | .string _, .object _ => isFalse nofun
  | .list _, .null | .list _, .bool _ | .list _, .int _ | .list _, .decimal _
  | .list _, .string _ | .list _, .object _ => isFalse nofun
  | .object _, .null | .object _, .bool _ | .object _, .int _ | .object _, .decimal _
  | .object _, .string _ | .object _, .list _ => isFalse nofun

/-- Decides whether two lists of values are equal. -/
def decEqItems : (a b : List Value) → Decidable (a = b)
  | [], [] => isTrue rfl
  | [], _ :: _ => isFalse nofun
  | _ :: _, [] => isFalse nofun
  | a :: as, b :: bs =>
    match decEq a b, decEqItems as bs with
    | isTrue h, isTrue hs => isTrue (h ▸ hs ▸ rfl)
    | isFalse h, _ => isFalse (by simp [h])
    | _, isFalse hs => isFalse (by simp [hs])

/-- Decides whether two objects have the same fields in the same order. -/
def decEqFields : (a b : List (String × Value)) → Decidable (a = b)
  | [], [] => isTrue rfl
  | [], _ :: _ => isFalse nofun
  | _ :: _, [] => isFalse nofun
  | (k, a) :: as, (l, b) :: bs =>
    if hk : k = l then
      match decEq a b, decEqFields as bs with
      | isTrue h, isTrue hs => isTrue (hk ▸ h ▸ hs ▸ rfl)
      | isFalse h, _ => isFalse (by simp [h])
      | _, isFalse hs => isFalse (by simp [hs])
    else isFalse (by simp [hk])

end

instance : DecidableEq Value := decEq

/-! ## Kinds -/

/-- The name of a value's kind, as messages give it. -/
def kind : Value → String
  | .null => "NoneType"
  | .bool _ => "bool"
  | .int _ => "int"
  | .decimal _ => "float"
  | .string _ => "str"
  | .list _ => "list"
  | .object _ => "dict"

/-- The value of an optional integer. -/
def ofInt? : Option Int → Value
  | some n => .int n
  | none => .null

/-- The value of an optional text. -/
def ofString? : Option String → Value
  | some s => .string s
  | none => .null

/-! ## Views -/

/-- The text that a value is. -/
def text? : Value → Option String
  | .string s => some s
  | _ => none

/-- The whole number that a value stands for. A number is the same however it is written, and the
truth values count as one and zero. -/
def number? : Value → Option Int
  | .bool b => some (if b then 1 else 0)
  | .int n => some n
  | .decimal d => d.exact.whole?
  | _ => none

/-- The items of a list; other values have none. -/
def items : Value → List Value
  | .list items => items
  | _ => []

/-- The fields of an object; other values have none. -/
def fields : Value → Fields
  | .object fields => fields
  | _ => []

end Value

/-! ## Fields -/

namespace Fields

/-- The whole number in a field. -/
def number? (fields : Fields) (key : String) : Option Int := (fields.get? key).bind Value.number?

/-- The text in a field. -/
def text? (fields : Fields) (key : String) : Option String := (fields.get? key).bind Value.text?

/-- Whether all fields have names from a list. -/
def within (fields : Fields) (names : List String) : Bool := fields.keys.all (names.contains ·)

end Fields

end EditionMarket
