import EditionMarket.Text.Digits
import EditionMarket.Yaml.Cursor
import EditionMarket.Yaml.Fault

/-!
# Scalars in a document

A plain scalar runs on to the next indicator, and over the ends of lines as long as it stays right of
its surroundings. A quoted scalar runs on to its quote. In both, the end of a line and the spaces
around it count as one space, and every empty line as a line feed. The lines of a block scalar are
taken as they are, or folded in the same way.
-/

namespace EditionMarket.Yaml

/-- The text of a scalar as the document has it. -/
structure Spelling where
  chars : List Char
  /-- It stands there without quotes and not as a block. -/
  plain : Bool := false
  /-- Every escape in it stands for a character. -/
  clean : Bool := true
deriving DecidableEq, Inhabited

/-- What stands for the end of a line and the ends of the empty lines after it. -/
def folded (first : Char) (more : List Char) : List Char :=
  if first ≠ '\n' then first :: more else if more = [] then [' '] else more

/-- Goes on over the ends of lines, and over what stands between them as far as `p` holds. Answers with
the ends, and the place after them; none if a marker stands at the start of a line. -/
def lineEnds? (p : Char → Bool) (cursor : Cursor) : Nat → Option (List Char) × Cursor
  | 0 => (some [], cursor)
  | fuel + 1 =>
    if cursor.atMarker then (none, cursor)
    else
      let after := cursor.skip p
      match after.lineEnd? with
      | none => (some [], after)
      | some (c, start) =>
        let (more, last) := lineEnds? p start fuel
        (more.map (c :: ·), last)

/-! ## Plain scalars -/

/-- Whether a plain scalar can start here. -/
def startsPlain (flow : Bool) : List Char → Bool
  | [] => false
  | c :: rest =>
    if c = '-' then !isApart rest
    else if c = '?' || c = ':' then !isApart rest && !flow
    else !isGap c && !",[]\x7b\x7d#&*!|>'\"%@\x60".toList.contains c

/-- The part of a plain scalar up to the next gap or indicator. -/
def plainWord (flow : Bool) : List Char → List Char
  | [] => []
  | c :: rest =>
    let ends := isGap c
      || (c = ':' && (isApart rest || (flow && rest.head?.any ",[]\x7b\x7d".toList.contains)))
      || (flow && ",?[]\x7b\x7d".toList.contains c)
    if ends then [] else c :: plainWord flow rest

/-- What stands for the gap after a word of a plain scalar, nothing if the scalar ends there; the place
after the gap, and whether it is on another line. -/
def plainGap (cursor : Cursor) : List Char × Cursor × Bool :=
  let (spaces, after) := cursor.span (· = ' ')
  match after.lineEnd? with
  | none => (spaces, after, false)
  | some (first, start) =>
    let (ends, last) := lineEnds? (· = ' ') start (start.rest.length + 1)
    (ends.elim [] (folded first), last, true)

/-- Reads on in a plain scalar: `text` is what was read, backwards, and `gap` what stands for the gap
after it. `below` says whether a column lies outside of the scalar. Answers with the text, the place
after the gap that ends it, and whether that place is on another line. -/
def plainFrom (flow : Bool) (below : Nat → Bool) (text gap : List Char) (cursor : Cursor)
    (broken : Bool) : Nat → List Char × Cursor × Bool
  | 0 => (text.reverse, cursor, broken)
  | fuel + 1 =>
    let word := if cursor.rest.head? = some '#' then [] else plainWord flow cursor.rest
    if word = [] then (text.reverse, cursor, broken)
    else
      let text := word.reverse ++ gap.reverse ++ text
      let (gap, after, broken) := plainGap (cursor.advance word.length)
      if gap = [] ∨ (!flow ∧ below after.column) then (text.reverse, after, broken)
      else plainFrom flow below text gap after broken fuel

/-- Reads a plain scalar. -/
def plainScalar (flow : Bool) (below : Nat → Bool) (cursor : Cursor) : Spelling × Cursor × Bool :=
  let (chars, after, broken) := plainFrom flow below [] [] cursor false (cursor.rest.length + 1)
  ({ chars := chars, plain := true }, after, broken)

/-! ## Quoted scalars -/

/-- What escapes of one letter stand for. -/
def shortEscapes : List (Char × Char) :=
  [('0', '\x00'), ('a', '\x07'), ('b', '\x08'), ('t', '\t'), ('\t', '\t'), ('n', '\n'), ('v', '\x0b'),
    ('f', '\x0c'), ('r', '\r'), ('e', '\x1b'), (' ', ' '), ('"', '"'), ('\\', '\\'), ('/', '/'),
    ('N', '\x85'), ('_', '\xa0'), ('L', '\u2028'), ('P', '\u2029')]

/-- How many digits follow the letter of an escape. -/
def escapeDigits : List (Char × Nat) := [('x', 2), ('u', 4), ('U', 8)]

/-- What is shown for a code that is kept for one half of a pair: one replacement character for each of
its bytes. -/
def halfShown : List Char := List.replicate 3 '\ufffd'

/-- What stands after the backslash of an escape: its characters, whether they are real ones, and the
place after it. -/
def escaped (cursor : Cursor) : Except Fault (List Char × Bool × Cursor) :=
  match cursor.rest with
  | [] => .error .malformed
  | c :: rest =>
    match cursor.lineEnd?, shortEscapes.lookup c, escapeDigits.lookup c with
    | some (_, start), _, _ =>
      match lineEnds? (fun c => c = ' ' || c = '\t') start (start.rest.length + 1) with
      | (some ends, last) => .ok (ends, true, last)
      | (none, _) => .error .malformed
    | none, some d, _ => .ok ([d], true, cursor.next)
    | none, none, some count =>
      let digits := rest.take count
      if digits.length < count ∨ !digits.all (Text.isDigitIn 16) then .error .malformed
      else
        let code := Text.number 16 digits
        let after := cursor.advance (count + 1)
        if code.isValidChar then .ok ([Char.ofNat code], true, after)
        else if code < 0x110000 then .ok (halfShown, false, after)
        else .error .noCharacter
    | none, none, none => .error .malformed

/-- What stands for a gap inside a quoted scalar, and the place after it. -/
def quotedGap (cursor : Cursor) : Except Fault (List Char × Cursor) :=
  let blank := fun c : Char => c = ' ' || c = '\t'
  let (spaces, after) := cursor.span blank
  match after.lineEnd? with
  | none => .ok (spaces, after)
  | some (first, start) =>
    match lineEnds? blank start (start.rest.length + 1) with
    | (some ends, last) => .ok (folded first ends, last)
    | (none, _) => .error .malformed

/-- Reads on inside a quoted scalar. `text` is what was read, backwards. -/
def quotedFrom (quote : Char) (text : List Char) (clean : Bool) (cursor : Cursor) :
    Nat → Except Fault (Spelling × Cursor)
  | 0 => .error .malformed
  | fuel + 1 =>
    match cursor.rest with
    | [] => .error .malformed
    | c :: rest =>
      if isGap c then do
        let (gap, after) ← quotedGap cursor
        quotedFrom quote (gap.reverse ++ text) clean after fuel
      else if c = '\'' ∧ quote = c ∧ rest.head? = some c then
        quotedFrom quote (c :: text) clean cursor.next.next fuel
      else if c = quote then .ok ({ chars := text.reverse, clean := clean }, cursor.next)
      else if c = '\\' ∧ quote = '"' then do
        let (chars, real, after) ← escaped cursor.next
        quotedFrom quote (chars.reverse ++ text) (clean && real) after fuel
      else quotedFrom quote (c :: text) clean cursor.next fuel

/-- Reads a quoted scalar, whose first quote comes next. -/
def quotedScalar (quote : Char) (cursor : Cursor) : Except Fault (Spelling × Cursor) :=
  quotedFrom quote [] true cursor.next (cursor.rest.length + 1)

end EditionMarket.Yaml
