import EditionMarket.Raw
import EditionMarket.Yaml.Node

/-!
# Reading documents

A document is read as raw settings. Of two entries with equal names the later value counts, in the place
of the earlier one. A collection cannot be a name.

Of several things that are wrong with scalars the one is told that stands at the lowest depth, and of
those the first.
-/

namespace EditionMarket.Yaml

/-! ## Scalars -/

/-- What a scalar means. -/
def Spelling.meaning (spelling : Spelling) : Except Fault Scalar :=
  if spelling.plain then Scalar.ofPlain spelling.chars
  else
    let s := String.ofList spelling.chars
    .ok (if spelling.clean then .text s else .garbled s)

namespace Scalar

/-- The raw setting that a scalar is. -/
def raw : Scalar → Except Fault Raw
  | .null => .ok .null
  | .bool b => .ok (.bool b)
  | .int n => .ok (.int n)
  | .decimal d => .ok (.decimal d)
  | .endless _ => .ok .endless
  | .moment _ => .ok .moment
  | .text s => .ok (.string s)
  | .garbled _ => .ok .garbled
  | .merge | .default => .error .malformed

/-- The exact number that a scalar is. -/
def amount? : Scalar → Option Decimal
  | .bool b => some ⟨if b then 1 else 0, 0⟩
  | .int n => some ⟨n, 0⟩
  | .decimal d => some d.exact
  | _ => none

/-- Whether two scalars are one name. -/
def isSameName (a b : Scalar) : Bool :=
  match a.amount?, b.amount? with
  | some x, some y => x = y
  | _, _ => a = b

/-- The name that a scalar is. A number that takes more than 64 bits is shown by its digits. -/
def label : Scalar → Label
  | .null => .other "None"
  | .bool b => .number (if b then 1 else 0)
  | .int n => if -Int.pow 2 63 ≤ n ∧ n < Int.pow 2 63 then .number n else .other (toString n)
  | .decimal d => .other d.text
  | .endless shown | .moment shown | .garbled shown => .other shown
  | .text s => .text s
  | .merge => .text "<<"
  | .default => .text "="

end Scalar

/-! ## Collections -/

/-- What was made of a part of a document, and what is wrong with it, depth by depth. -/
structure Reading (α : Type) where
  result : α
  faults : List (List Fault) := []

namespace Reading

variable {α : Type}

/-- What is wrong with two parts that stand next to each other. -/
def join : List (List Fault) → List (List Fault) → List (List Fault)
  | [], levels => levels
  | levels, [] => levels
  | first :: rest, first' :: rest' => (first ++ first') :: join rest rest'

/-- What was made of a part, or what is instead of it where it is wrong. -/
def ofExcept (instead : α) : Except Fault α → Reading α
  | .ok result => ⟨result, []⟩
  | .error fault => ⟨instead, [[fault]]⟩

/-- A part whose faults lie one level deeper. -/
def deeper (reading : Reading α) : Reading α :=
  if reading.faults = [] then reading else { reading with faults := [] :: reading.faults }

/-- The result, or the first fault of the lowest level that has one. -/
def toExcept (reading : Reading α) : Except Fault α :=
  match reading.faults.flatten with
  | [] => .ok reading.result
  | fault :: _ => .error fault

end Reading

/-- An object so far, whose names still are scalars. -/
abbrev Entries := List (Scalar × Raw)

/-- Adds an entry, or changes the value of the entry with an equal name. -/
def Entries.put : Entries → Scalar → Raw → Entries
  | [], name, raw => [(name, raw)]
  | (n, r) :: rest, name, raw =>
    if n.isSameName name then (n, raw) :: rest else (n, r) :: put rest name raw

/-- The scalar that a name is. -/
def Node.name : Node → Except Fault Scalar
  | .scalar spelling => spelling.meaning
  | _ => .error .malformed

mutual

/-- Reads a node. The faults of a scalar belong to the level of what it stands in. -/
def Node.read : Node → Reading Raw
  | .scalar spelling => .ofExcept .null (spelling.meaning.bind Scalar.raw)
  | .sequence items =>
    let items := readItems items
    Reading.deeper ⟨.list items.result, items.faults⟩
  | .mapping entries mark =>
    let entries := readEntries [] entries
    let fields := entries.result.map fun (name, raw) => (name.label, raw)
    Reading.deeper ⟨.object fields mark, entries.faults⟩
  | .unmergeable => Reading.deeper ⟨.null, [[.malformed]]⟩

/-- Reads the items of a sequence. -/
def Node.readItems : List Node → Reading (List Raw)
  | [] => ⟨[], []⟩
  | item :: rest =>
    let first := item.read
    let others := readItems rest
    ⟨first.result :: others.result, Reading.join first.faults others.faults⟩

/-- Reads the entries of a mapping, after those that were read before. -/
def Node.readEntries (before : Entries) : List (Node × Node) → Reading Entries
  | [] => ⟨before, []⟩
  | (name, value) :: rest =>
    let key := Reading.ofExcept Scalar.null name.name
    let value := value.read
    let others := readEntries (before.put key.result value.result) rest
    ⟨others.result, Reading.join (Reading.join key.faults value.faults) others.faults⟩

end

/-! ## Documents -/

/-- The raw settings that a document stands for. -/
def read (s : String) : Except Fault Raw := do
  let start := Cursor.ofString s
  if !start.rest.all isAllowed then throw .malformed
  (← Node.ofTokens (Token.ofCursor start)).read.toExcept

end EditionMarket.Yaml
