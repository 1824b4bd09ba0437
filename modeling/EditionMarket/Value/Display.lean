import EditionMarket.Text.Quoted
import EditionMarket.Value

/-!
# Values inside messages

`Value.quoted` writes a value so that its kind shows: texts stand in quotes. `Value.plain` differs
from it on a bare text only, which it writes as it is. Both spell out the same integers,
`Value.integers`.
-/

namespace EditionMarket.Value

mutual

/-- A value with every text in quotes. -/
def quoted : Value → String
  | .null => "None"
  | .bool true => "True"
  | .bool false => "False"
  | .int n => toString n
  | .decimal d => d.text
  | .string s => Text.quoted s
  | .list items => "[" ++ String.intercalate ", " (quotedItems items) ++ "]"
  | .object fields => "\x7b" ++ String.intercalate ", " (quotedFields fields) ++ "\x7d"

/-- The items of a list, each with every text in quotes. -/
def quotedItems : List Value → List String
  | [] => []
  | item :: rest => quoted item :: quotedItems rest

/-- The fields of an object, name before value. -/
def quotedFields : List (String × Value) → List String
  | [] => []
  | (key, value) :: rest => (Text.quoted key ++ ": " ++ quoted value) :: quotedFields rest

end

/-- A value as it reads in the middle of a sentence. -/
def plain : Value → String
  | .string s => s
  | value => quoted value

mutual

/-- The integers in a value, wherever they stand. -/
def integers : Value → List Int
  | .int n => [n]
  | .list items => integersOfItems items
  | .object fields => integersOfFields fields
  | _ => []

/-- The integers in the items of a list. -/
def integersOfItems : List Value → List Int
  | [] => []
  | item :: rest => integers item ++ integersOfItems rest

/-- The integers in the values of an object. -/
def integersOfFields : List (String × Value) → List Int
  | [] => []
  | (_, value) :: rest => integers value ++ integersOfFields rest

end

theorem mem_integersOfItems {items : List Value} {n : Int} :
    n ∈ integersOfItems items ↔ ∃ item ∈ items, n ∈ item.integers := by
  induction items with
  | nil => simp [integersOfItems]
  | cons item rest ih => simp [integersOfItems, ih]

theorem mem_integersOfFields {fields : Fields} {n : Int} :
    n ∈ integersOfFields fields ↔ ∃ entry ∈ fields, n ∈ entry.2.integers := by
  induction fields with
  | nil => simp [integersOfFields]
  | cons entry rest ih => simp [integersOfFields, ih]

end EditionMarket.Value
