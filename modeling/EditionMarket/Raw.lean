import EditionMarket.Value

/-!
# Raw settings

A document or a host may give anything as settings. `Raw` is the type of what they give: all values, and
besides them what a document can spell but a value cannot hold, such as a date, a number that is not
finite, an object with names that are no texts, or one section that stands in several places. A section
that stands in several places has a mark by which it is known again.

Main statement: `value?_ofValue`, every value is kept as it is.
-/

namespace EditionMarket

/-! ## Names -/

/-- What a raw setting goes by. -/
inductive Label
  | text (s : String)
  | number (n : Int)
  /-- Anything else, and how it is shown. -/
  | other (shown : String)
deriving DecidableEq

namespace Label

/-- The text that a name is. -/
def text? : Label → Option String
  | text s => some s
  | _ => none

/-- How a name is shown. -/
def toValue : Label → Value
  | text s => .string s
  | number n => .int n
  | other shown => .string shown

end Label

/-! ## Settings -/

/-- What may be given as a setting. -/
inductive Raw
  | null
  | bool (b : Bool)
  | int (n : Int)
  | decimal (d : Decimal)
  /-- A number that is not finite. -/
  | endless
  /-- A date, or a time of some date. -/
  | moment
  | string (s : String)
  /-- A text with something in it that is no character. -/
  | garbled
  /-- Anything else that has no parts, such as a row of bytes or a section inside itself: how it is shown, and
  whether it counts as nothing. -/
  | other (shown : String) (void : Bool)
  | list (items : List Raw)
  /-- A section. Sections with the same mark are one section that stands in several places. -/
  | object (fields : List (Label × Raw)) (mark : Option Nat := none)
deriving Inhabited

namespace Raw

/-- The settings of a section, in order. -/
abbrev Fields := Listing Label Raw

mutual

/-- A value as a raw setting. -/
def ofValue : Value → Raw
  | .null => .null
  | .bool b => .bool b
  | .int n => .int n
  | .decimal d => .decimal d
  | .string s => .string s
  | .list items => .list (ofItems items)
  | .object fields => .object (ofFields fields)

/-- Values as raw settings. -/
def ofItems : List Value → List Raw
  | [] => []
  | item :: rest => ofValue item :: ofItems rest

/-- The fields of an object as the settings of a section. -/
def ofFields : List (String × Value) → List (Label × Raw)
  | [] => []
  | (key, value) :: rest => (.text key, ofValue value) :: ofFields rest

end

mutual

/-- The value that a raw setting is, if values can hold it. -/
def value? : Raw → Option Value
  | .null => some .null
  | .bool b => some (.bool b)
  | .int n => some (.int n)
  | .decimal d => some (.decimal d)
  | .string s => some (.string s)
  | .list items => (items? items).map .list
  | .object fields _ => (fields? fields).map .object
  | .endless | .moment | .garbled | .other .. => none

/-- The values that raw settings are, if values can hold all of them. -/
def items? : List Raw → Option (List Value)
  | [] => some []
  | item :: rest => do
    let first ← value? item
    let others ← items? rest
    return first :: others

/-- The fields of the object that a section is, if values can hold it. -/
def fields? : List (Label × Raw) → Option (List (String × Value))
  | [] => some []
  | (label, raw) :: rest => do
    let key ← label.text?
    let value ← value? raw
    let others ← fields? rest
    return (key, value) :: others

end

mutual

/-- Every value is kept as it is. -/
@[simp] theorem value?_ofValue : ∀ value : Value, value? (ofValue value) = some value
  | .null | .bool _ | .int _ | .decimal _ | .string _ => rfl
  | .list items => by simp [ofValue, value?, items?_ofItems items]
  | .object fields => by simp [ofValue, value?, fields?_ofFields fields]

/-- All values of a list are kept as they are. -/
theorem items?_ofItems : ∀ items : List Value, items? (ofItems items) = some items
  | [] => rfl
  | item :: rest => by simp [ofItems, items?, value?_ofValue item, items?_ofItems rest]

/-- All fields of an object are kept as they are. -/
theorem fields?_ofFields :
    ∀ fields : List (String × Value), fields? (ofFields fields) = some fields
  | [] => rfl
  | (_, value) :: rest => by
    simp [ofFields, fields?, Label.text?, value?_ofValue value, fields?_ofFields rest]

end

/-- Whether a setting holds nothing: null, false, zero, and everything empty. -/
def isVoid : Raw → Bool
  | .null => true
  | .bool b => !b
  | .int n => n = 0
  | .decimal d => d.coefficient = 0
  | .string s => s = ""
  | .list items => items.isEmpty
  | .object fields _ => fields.isEmpty
  | .endless | .moment | .garbled => false
  | .other _ void => void

/-! ## Sections in several places -/

/-- The mark of a section, if it has one. -/
def mark? : Raw → Option Nat
  | .object _ mark => mark
  | _ => none

mutual

/-- The marks of all sections in a setting. -/
def marks : Raw → List Nat
  | .list items => marksOfItems items
  | .object fields mark => mark.toList ++ marksOfFields fields
  | _ => []

/-- The marks of all sections in the items of a list. -/
def marksOfItems : List Raw → List Nat
  | [] => []
  | item :: rest => marks item ++ marksOfItems rest

/-- The marks of all sections among the settings of a section. -/
def marksOfFields : List (Label × Raw) → List Nat
  | [] => []
  | (_, raw) :: rest => marks raw ++ marksOfFields rest

end

/-- A number that is larger than all marks in a setting. -/
def markBound (raw : Raw) : Nat := (raw.marks.map Nat.succ).foldr max 0

mutual

/-- The setting with other marks, each of them larger by the same number. What is one section in several
places stays one. -/
def raised (n : Nat) : Raw → Raw
  | .list items => .list (raisedItems n items)
  | .object fields mark => .object (raisedFields n fields) (mark.map (· + n))
  | raw => raw

/-- The items of a list, with larger marks. -/
def raisedItems (n : Nat) : List Raw → List Raw
  | [] => []
  | item :: rest => raised n item :: raisedItems n rest

/-- The settings of a section, with larger marks. -/
def raisedFields (n : Nat) : List (Label × Raw) → List (Label × Raw)
  | [] => []
  | (label, raw) :: rest => (label, raised n raw) :: raisedFields n rest

end

mutual

/-- Puts a section wherever one with the mark stands. -/
def replaceAll (mark : Nat) (whole : Raw) : Raw → Raw
  | .list items => .list (replaceItems mark whole items)
  | .object fields m =>
    if m = some mark then whole else .object (replaceFields mark whole fields) m
  | raw => raw

/-- Does so among the items of a list. -/
def replaceItems (mark : Nat) (whole : Raw) : List Raw → List Raw
  | [] => []
  | item :: rest => replaceAll mark whole item :: replaceItems mark whole rest

/-- Does so among the settings of a section. -/
def replaceFields (mark : Nat) (whole : Raw) : List (Label × Raw) → List (Label × Raw)
  | [] => []
  | (label, raw) :: rest => (label, replaceAll mark whole raw) :: replaceFields mark whole rest

end

/-- The settings of a section after another section has changed, which does so wherever it stands among
them. -/
def spreadFields (whole : Raw) (fields : Raw.Fields) : Raw.Fields :=
  match whole.mark? with
  | some mark => replaceFields mark whole fields
  | none => fields

end Raw

end EditionMarket
