import EditionMarket.Json.Token

/-!
# Reading JSON

A text that holds one value and nothing else is read token by token. The containers that are still
open wait on a stack of frames. Of two fields with one name the later value counts. Of two things that
are wrong with a text the earlier one is told.
-/

namespace EditionMarket.Json

/-- Why a text cannot be read. -/
inductive Fault
  | malformed
  /-- An integer has more digits than are read. -/
  | overlong (digits : Nat)
deriving DecidableEq

/-- The message of a fault that has one. -/
def Fault.message? : Fault → Option String
  | malformed => none
  | overlong digits => some (Text.tooManyDigits digits)

/-- An open container: the items of a list so far, backwards, or the fields of an object so far and
the name of the field whose value is being read. -/
inductive Frame
  | list (items : List Value)
  | object (fields : Fields) (key : String)

/-- What has to come next. -/
inductive Reader
  /-- A value. -/
  | value (outer : List Frame)
  /-- The first item of a list, or its end. -/
  | firstItem (outer : List Frame)
  /-- The first field of an object, or its end. -/
  | firstField (outer : List Frame)
  /-- A field after a comma. -/
  | field (outer : List Frame) (fields : Fields)
  /-- The colon after a field's name. -/
  | colon (outer : List Frame) (fields : Fields) (key : String)
  /-- A comma or the end of the innermost container, which holds a value. -/
  | more (frame : Frame) (outer : List Frame)
  /-- Nothing: the value is complete. -/
  | done (value : Value)

namespace Reader

/-- Hands a complete value to the innermost open container. -/
def give (v : Value) : List Frame → Reader
  | [] => .done v
  | .list items :: outer => .more (.list (v :: items)) outer
  | .object fields key :: outer => .more (.object (fields.put key v) key) outer

/-- Reads the first token of a value. -/
def opening (token : Token) (outer : List Frame) : Except Fault Reader :=
  match token with
  | .atom v => .ok (give v outer)
  | .overlong digits => .error (.overlong digits)
  | .openList => .ok (.firstItem outer)
  | .openObject => .ok (.firstField outer)
  | _ => .error .malformed

/-- Reads one token. -/
def step (reader : Reader) (token : Token) : Except Fault Reader :=
  match reader, token with
  | .value outer, token => opening token outer
  | .firstItem outer, .closeList => .ok (give (.list []) outer)
  | .firstItem outer, token => opening token (.list [] :: outer)
  | .firstField outer, .closeObject => .ok (give (.object []) outer)
  | .firstField outer, .atom (.string key) => .ok (.colon outer [] key)
  | .field outer fields, .atom (.string key) => .ok (.colon outer fields key)
  | .colon outer fields key, .colon => .ok (.value (.object fields key :: outer))
  | .more (.list items) outer, .comma => .ok (.value (.list items :: outer))
  | .more (.list items) outer, .closeList => .ok (give (.list items.reverse) outer)
  | .more (.object fields _) outer, .comma => .ok (.field outer fields)
  | .more (.object fields _) outer, .closeObject => .ok (give (.object fields) outer)
  | _, _ => .error .malformed

end Reader

/-- The value that a text stands for. -/
def read (s : String) : Except Fault Value := do
  let (tokens, whole) := Lexer.run {} s.toList
  match ← tokens.foldlM Reader.step (.value []) with
  | .done value => if whole then return value else throw .malformed
  | _ => throw .malformed

end EditionMarket.Json
