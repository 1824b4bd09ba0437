import EditionMarket.Text.Blank

/-!
# Places in a document

A cursor is a place in a document: what follows it, how many characters stand before it, and its line
and column. What belongs together depends on lines and columns, so everything that reads a document
moves a cursor.
-/

namespace EditionMarket.Yaml

/-! ## Characters -/

/-- Whether a character ends a line. -/
def isBreak (c : Char) : Bool := c = '\n' || c = '\x85' || c = '\u2028' || c = '\u2029'

/-- Whether a character parts one token from the next. -/
def isGap (c : Char) : Bool := c = ' ' || c = '\t' || isBreak c

/-- Whether a gap or the end follows. -/
def isApart (cs : List Char) : Bool := cs.head?.all isGap

/-- Whether a character may stand in a document. -/
def isAllowed (c : Char) : Bool :=
  let n := c.toNat
  n = 9 || n = 10 || n = 13 || (32 ≤ n && n ≤ 126) || n = 133 || (160 ≤ n && n ≤ 0xFFFD)
    || 0x10000 ≤ n

/-- The mark of the order of bytes, which takes no place on its line. -/
def byteOrderMark : Char := '\ufeff'

/-! ## Cursors -/

/-- A place in a document. -/
structure Cursor where
  rest : List Char
  index : Nat := 0
  line : Nat := 0
  column : Nat := 0

namespace Cursor

/-- The place at the start of a text. -/
def ofString (s : String) : Cursor := { rest := Text.unifyBreaks s.toList }

/-- The place after the next character. -/
def next (cursor : Cursor) : Cursor :=
  match cursor.rest with
  | [] => cursor
  | c :: rest =>
    if isBreak c then ⟨rest, cursor.index + 1, cursor.line + 1, 0⟩
    else if c = byteOrderMark then ⟨rest, cursor.index + 1, cursor.line, cursor.column⟩
    else ⟨rest, cursor.index + 1, cursor.line, cursor.column + 1⟩

/-- The place `count` characters later. -/
def advance (cursor : Cursor) : Nat → Cursor
  | 0 => cursor
  | count + 1 => cursor.next.advance count

/-- The next place where `p` does not hold, and the characters up to it. -/
def span (cursor : Cursor) (p : Char → Bool) : List Char × Cursor :=
  let cs := cursor.rest.takeWhile p
  (cs, cursor.advance cs.length)

/-- The next place where `p` does not hold. -/
def skip (cursor : Cursor) (p : Char → Bool) : Cursor := (cursor.span p).2

/-- The end of the line, as it counts in a scalar, and the start of the next line, if the line ends
here. -/
def lineEnd? (cursor : Cursor) : Option (Char × Cursor) :=
  match cursor.rest with
  | [] => none
  | c :: _ => if isBreak c then some (if c = '\x85' then '\n' else c, cursor.next) else none

/-- The next place after spaces, and after a comment if one follows. -/
def skipComment (cursor : Cursor) : Cursor :=
  let cursor := cursor.skip (· = ' ')
  if cursor.rest.head? = some '#' then cursor.skip (! isBreak ·) else cursor

/-- Whether a mark of three equal characters stands alone at the start of the line. -/
def atMark (cursor : Cursor) (c : Char) : Bool :=
  cursor.column = 0 && cursor.rest.take 3 = [c, c, c] && isApart (cursor.rest.drop 3)

/-- Whether a document starts or ends here. -/
def atMarker (cursor : Cursor) : Bool := cursor.atMark '-' || cursor.atMark '.'

end Cursor

end EditionMarket.Yaml
