import EditionMarket.Yaml.Text

/-!
# Block scalars

A block scalar has a header and lines. Its first line that is not empty says how far the lines are
indented, unless the header does. The lines are taken as they are, or folded, which joins those that
start with no space. The header also says what becomes of the ends of the last lines.
-/

namespace EditionMarket.Yaml

/-! ## Headers -/

/-- What becomes of the ends of the last lines: none stays, one stays, or all stay. -/
inductive Chomping
  | strip
  | clip
  | keep
deriving DecidableEq

/-- The header of a block scalar. -/
structure BlockHeader where
  folding : Bool
  chomping : Chomping := .clip
  /-- How much further than its surroundings the scalar is indented. -/
  increment : Option Nat := none

namespace BlockHeader

/-- Reads one indicator, if one follows. -/
def indicator (header : BlockHeader) (c : Char) : Option BlockHeader :=
  if c = '+' ∨ c = '-' then
    if header.chomping = .clip then some { header with chomping := if c = '+' then .keep else .strip }
    else none
  else if c.isDigit ∧ c ≠ '0' ∧ header.increment = none then
    some { header with increment := some (Text.number 10 [c]) }
  else none

/-- Reads the header, and the rest of its line, where only a comment may stand. -/
def read (folding : Bool) (cursor : Cursor) : Except Fault (BlockHeader × Cursor) := do
  let (indicators, after) := cursor.span (! isGap ·)
  let some header := indicators.foldlM indicator { folding := folding } | throw .malformed
  if after.rest.head? = some '\t' then throw .malformed
  let last := after.skipComment
  match last.lineEnd? with
  | some (_, start) => return (header, start)
  | none => if last.rest = [] then return (header, last) else throw .malformed

end BlockHeader

/-! ## Lines -/

/-- Goes on over empty lines and spaces. Answers with the ends of the lines, the rightmost column on the
way, and the place after them. -/
def leadingLines (ends : List Char) (furthest : Nat) (cursor : Cursor) :
    Nat → List Char × Nat × Cursor
  | 0 => (ends.reverse, furthest, cursor)
  | fuel + 1 =>
    let after := cursor.skip (· = ' ')
    let furthest := max furthest after.column
    match after.lineEnd? with
    | some (c, start) => leadingLines (c :: ends) furthest start fuel
    | none => (ends.reverse, furthest, after)

/-- Goes on over empty lines and the indentation of the line after them. -/
def emptyLines (indent : Nat) (ends : List Char) (cursor : Cursor) : Nat → List Char × Cursor
  | 0 => (ends.reverse, cursor)
  | fuel + 1 =>
    let spaces := (cursor.rest.take (indent - cursor.column)).takeWhile (· = ' ')
    let after := cursor.advance spaces.length
    match after.lineEnd? with
    | some (c, start) => emptyLines indent (c :: ends) start fuel
    | none => (ends.reverse, after)

/-- Whether a space comes next. -/
def startsBlank (cursor : Cursor) : Bool := cursor.rest.head?.any fun c => c = ' ' || c = '\t'

/-- Reads on from a line of a block scalar. `text` is what was read, backwards, and `ends` are the ends
of the empty lines before this line. -/
def blockLines (header : BlockHeader) (indent : Nat) (text ends : List Char) (cursor : Cursor) :
    Nat → List Char × Cursor
  | 0 => (text.reverse, cursor)
  | fuel + 1 =>
    let (line, after) := cursor.span (! isBreak ·)
    let (lineEnd, start) := match after.lineEnd? with
      | some (c, start) => ([c], start)
      | none => ([], after)
    let text := line.reverse ++ ends.reverse ++ text
    let (ends, next) := emptyLines indent [] start (start.rest.length + 1)
    if next.column = indent ∧ next.rest ≠ [] then
      let joined := header.folding && lineEnd = ['\n'] && !startsBlank cursor && !startsBlank next
      let joint := if joined then (if ends = [] then [' '] else []) else lineEnd
      blockLines header indent (joint ++ text) ends next fuel
    else
      let last := match header.chomping with
        | .strip => []
        | .clip => lineEnd
        | .keep => lineEnd ++ ends
      (text.reverse ++ last, next)

/-- Reads a block scalar, whose indicator comes next, inside of a block that stands at `outer`. -/
def blockScalar (folding : Bool) (outer : Option Nat) (cursor : Cursor) :
    Except Fault (Spelling × Cursor) := do
  let (header, start) ← BlockHeader.read folding cursor.next
  let least := max 1 (outer.elim 0 (· + 1))
  let fuel := start.rest.length + 1
  let (ends, indent, first) := match header.increment with
    | some increment =>
      let indent := least + increment - 1
      let (ends, first) := emptyLines indent [] start fuel
      (ends, indent, first)
    | none =>
      let (ends, furthest, first) := leadingLines [] 0 start fuel
      (ends, max least furthest, first)
  if first.column = indent ∧ first.rest ≠ [] then
    let (chars, last) := blockLines header indent [] ends first fuel
    return ({ chars := chars }, last)
  else return ({ chars := if header.chomping = .keep then ends else [] }, first)

end EditionMarket.Yaml
