import EditionMarket.Yaml.Block

/-!
# Tokens of a document

A document is cut into tokens. Besides the characters that stand for themselves there are tokens for what
only columns tell: where a block starts and where it ends. Whether a scalar is the name of an entry is
known only when the colon comes; until then its place is kept as a candidate, and the colon puts the
tokens before it. A name stands on one line and is not long.
-/

namespace EditionMarket.Yaml

/-- A token of a document. -/
inductive Token
  | documentStart
  | documentEnd
  | blockSequence
  | blockMapping
  | blockEnd
  | flowSequence
  | flowSequenceEnd
  | flowMapping
  | flowMappingEnd
  | blockEntry
  | flowEntry
  | key
  | value
  | anchor (name : List Char)
  | alias (name : List Char)
  | scalar (spelling : Spelling)
  /-- What follows is no token. -/
  | fault (fault : Fault)
deriving DecidableEq, Inhabited

/-- A place where the name of an entry may stand. -/
structure Candidate where
  /-- The number of tokens before it. -/
  position : Nat
  start : Cursor
  /-- Nothing else may stand there. -/
  required : Bool

/-- The most characters from the start of a name to its colon. -/
def longestName : Nat := 1024

/-- Whether a place is too far off for the colon after a candidate. -/
def Candidate.isStale (candidate : Candidate) (cursor : Cursor) : Bool :=
  candidate.start.line ≠ cursor.line || longestName < cursor.index - candidate.start.index

/-- A place in a document, and what was found up to it. -/
structure Lexer where
  cursor : Cursor
  /-- Backwards. -/
  tokens : List Token := []
  /-- The columns of the blocks around the place, the innermost first. -/
  blocks : List Nat := []
  /-- Whether a name may start here. -/
  keyAllowed : Bool := true
  candidate : Option Candidate := none
  /-- The candidates in the collections around the innermost flow collection. -/
  outer : List (Option Candidate) := []
  finished : Bool := false

namespace Lexer

/-! ## Changes -/

/-- Whether the place is inside a flow collection. -/
def inFlow (lexer : Lexer) : Bool := !lexer.outer.isEmpty

/-- Adds a token. -/
def emit (lexer : Lexer) (token : Token) : Lexer := { lexer with tokens := token :: lexer.tokens }

/-- Adds a token before all but the first `position` tokens. -/
def insert (lexer : Lexer) (position : Nat) (token : Token) : Lexer :=
  let (later, earlier) := lexer.tokens.splitAt (lexer.tokens.length - position)
  { lexer with tokens := later ++ token :: earlier }

/-- Adds a token of `count` characters. -/
def take (lexer : Lexer) (count : Nat) (token : Token) : Lexer :=
  { lexer with cursor := lexer.cursor.advance count, tokens := token :: lexer.tokens }

/-- Whether a column lies further right than the block around the place. -/
def isDeeper (lexer : Lexer) (column : Nat) : Bool := lexer.blocks.head?.all (· < column)

/-- Starts a block, if its column lies further right than that of the block around it. -/
def startBlock (lexer : Lexer) (column position : Nat) (token : Token) : Lexer :=
  if lexer.isDeeper column then { lexer.insert position token with blocks := column :: lexer.blocks }
  else lexer

/-- Ends the blocks whose columns lie further right than a column allows. Inside a flow collection no
block ends. -/
def endBlocks (lexer : Lexer) (further : Nat → Bool) : Lexer :=
  if lexer.inFlow then lexer
  else
    let ended := lexer.blocks.takeWhile further
    { lexer with
      blocks := lexer.blocks.drop ended.length
      tokens := List.replicate ended.length .blockEnd ++ lexer.tokens }

/-- Gives the candidate up. -/
def dropCandidate (lexer : Lexer) : Except Fault Lexer :=
  if lexer.candidate.any Candidate.required then .error .malformed
  else .ok { lexer with candidate := none }

/-- Makes the place a candidate, if a name may start here. -/
def addCandidate (lexer : Lexer) : Except Fault Lexer := do
  if lexer.keyAllowed then
    let required := !lexer.inFlow && lexer.blocks.head? = some lexer.cursor.column
    let lexer ← lexer.dropCandidate
    return { lexer with candidate := some ⟨lexer.tokens.length, lexer.cursor, required⟩ }
  else return lexer

/-- Gives up the candidates that are too far off. -/
def dropStale (lexer : Lexer) : Except Fault Lexer :=
  let stale := fun candidate : Candidate => candidate.isStale lexer.cursor
  if (lexer.candidate :: lexer.outer).any (·.any fun c => c.required && stale c) then
    .error .malformed
  else
    .ok { lexer with
          candidate := lexer.candidate.filter (! stale ·)
          outer := lexer.outer.map (·.filter (! stale ·)) }

/-! ## Tokens -/

/-- Goes on to the next token. At the start of a line of a block a name may start. -/
def skipGaps (lexer : Lexer) : Nat → Lexer
  | 0 => lexer
  | fuel + 1 =>
    let after := lexer.cursor.skipComment
    match after.lineEnd? with
    | some (_, start) =>
      skipGaps { lexer with cursor := start, keyAllowed := lexer.keyAllowed || !lexer.inFlow } fuel
    | none => { lexer with cursor := after }

/-- Ends the document. -/
def finish (lexer : Lexer) : Except Fault Lexer := do
  let lexer ← (lexer.endBlocks fun _ => true).dropCandidate
  return { lexer with finished := true }

/-- Reads the marker at which a document starts or ends. -/
def marker (lexer : Lexer) (token : Token) : Except Fault Lexer := do
  let lexer ← (lexer.endBlocks fun _ => true).dropCandidate
  return { lexer.take 3 token with keyAllowed := false }

/-- Reads the bracket at which a flow collection starts. -/
def openFlow (lexer : Lexer) (token : Token) : Except Fault Lexer := do
  let lexer ← lexer.addCandidate
  return { lexer.take 1 token with
    candidate := none, outer := lexer.candidate :: lexer.outer, keyAllowed := true }

/-- Reads the bracket at which a flow collection ends. -/
def closeFlow (lexer : Lexer) (token : Token) : Except Fault Lexer :=
  match lexer.outer with
  | candidate :: outer =>
    .ok { lexer.take 1 token with candidate := candidate, outer := outer, keyAllowed := false }
  | [] => .error .malformed

/-- Reads a comma between the entries of a flow collection. -/
def flowEntry (lexer : Lexer) : Except Fault Lexer := do
  let lexer ← lexer.dropCandidate
  return { lexer.take 1 .flowEntry with keyAllowed := true }

/-- Starts a block with an entry at this place, if a block may start here. Inside a flow collection
there are no blocks. -/
def entryBlock (lexer : Lexer) (token : Token) : Except Fault Lexer :=
  if lexer.inFlow then .ok lexer
  else if lexer.keyAllowed then
    .ok (lexer.startBlock lexer.cursor.column lexer.tokens.length token)
  else .error .malformed

/-- Reads the dash before an item of a block. -/
def blockEntry (lexer : Lexer) : Except Fault Lexer := do
  let lexer ← (← lexer.entryBlock .blockSequence).dropCandidate
  return { lexer.take 1 .blockEntry with keyAllowed := true }

/-- Reads the question mark before a name. -/
def key (lexer : Lexer) : Except Fault Lexer := do
  let lexer ← (← lexer.entryBlock .blockMapping).dropCandidate
  return { lexer.take 1 .key with keyAllowed := !lexer.inFlow }

/-- Reads the colon after a name. If there is a candidate it is the name. -/
def value (lexer : Lexer) : Except Fault Lexer := do
  match lexer.candidate with
  | some candidate =>
    let position := candidate.position
    let named := { lexer.insert position .key with candidate := none, keyAllowed := false }
    let placed := if lexer.inFlow then named
      else named.startBlock candidate.start.column position .blockMapping
    return placed.take 1 .value
  | none =>
    let lexer ← lexer.entryBlock .blockMapping
    return { lexer.take 1 .value with keyAllowed := !lexer.inFlow }

/-- Whether a character may stand in the name of an anchor. -/
def inAnchor (c : Char) : Bool := c.isAlphanum || c = '-' || c = '_'

/-- Reads an anchor or an alias. -/
def anchor (lexer : Lexer) (token : List Char → Token) : Except Fault Lexer := do
  let lexer ← lexer.addCandidate
  let (name, after) := lexer.cursor.next.span inAnchor
  let ended := isApart after.rest || after.rest.head?.any "?:,]\x7d%@\x60".toList.contains
  if name = [] ∨ !ended then throw .malformed
  return { lexer.emit (token name) with cursor := after, keyAllowed := false }

/-- Reads a block scalar. -/
def block (lexer : Lexer) (folding : Bool) : Except Fault Lexer := do
  let lexer ← lexer.dropCandidate
  let (spelling, after) ← blockScalar folding lexer.blocks.head? lexer.cursor
  return { lexer.emit (.scalar spelling) with cursor := after, keyAllowed := true }

/-- Reads a quoted scalar. -/
def quoted (lexer : Lexer) (quote : Char) : Except Fault Lexer := do
  let lexer ← lexer.addCandidate
  let (spelling, after) ← quotedScalar quote lexer.cursor
  return { lexer.emit (.scalar spelling) with cursor := after, keyAllowed := false }

/-- Reads a plain scalar. -/
def plain (lexer : Lexer) : Except Fault Lexer := do
  let lexer ← lexer.addCandidate
  let (spelling, after, broken) :=
    plainScalar lexer.inFlow (! lexer.isDeeper ·) lexer.cursor
  return { lexer.emit (.scalar spelling) with cursor := after, keyAllowed := broken }

/-- Reads the next token. -/
def step (lexer : Lexer) : Except Fault Lexer := do
  let lexer ← (lexer.skipGaps (lexer.cursor.rest.length + 1)).dropStale
  let column := lexer.cursor.column
  let lexer := lexer.endBlocks (column < ·)
  let flow := lexer.inFlow
  match lexer.cursor.rest with
  | [] => lexer.finish
  | c :: rest =>
    if c = '%' ∧ column = 0 then throw .malformed
    else if lexer.cursor.atMark '-' then lexer.marker .documentStart
    else if lexer.cursor.atMark '.' then lexer.marker .documentEnd
    else if c = '[' then lexer.openFlow .flowSequence
    else if c = '\x7b' then lexer.openFlow .flowMapping
    else if c = ']' then lexer.closeFlow .flowSequenceEnd
    else if c = '\x7d' then lexer.closeFlow .flowMappingEnd
    else if c = ',' then lexer.flowEntry
    else if c = '-' ∧ isApart rest then lexer.blockEntry
    else if c = '?' ∧ (flow ∨ isApart rest) then lexer.key
    else if c = ':' ∧ (flow ∨ isApart rest) then lexer.value
    else if c = '*' then lexer.anchor .alias
    else if c = '&' then lexer.anchor .anchor
    else if c = '|' ∧ !flow then lexer.block false
    else if c = '>' ∧ !flow then lexer.block true
    else if c = '\'' ∨ c = '"' then lexer.quoted c
    else if startsPlain flow (c :: rest) then lexer.plain
    else throw .malformed

/-- The number of tokens before which no other token can be put any more. -/
def settled (lexer : Lexer) : Nat :=
  let candidates := (lexer.candidate :: lexer.outer).filterMap id
  let waiting := candidates.filter fun candidate => !candidate.isStale lexer.cursor
  (waiting.map Candidate.position).foldl min lexer.tokens.length

/-- Reads tokens to the end, or up to a fault. With a fault only the tokens count that are settled. -/
def run (lexer : Lexer) : Nat → List Token
  | 0 => lexer.tokens.reverse
  | fuel + 1 =>
    match lexer.step with
    | .error fault => lexer.tokens.reverse.take lexer.settled ++ [.fault fault]
    | .ok next => if next.finished then next.tokens.reverse else next.run fuel

end Lexer

/-- The tokens of a document. A byte order mark may stand before it. -/
def Token.ofCursor (start : Cursor) : List Token :=
  let cursor := if start.rest.head? = some byteOrderMark then start.next else start
  Lexer.run { cursor := cursor } (cursor.rest.length + 1)

end EditionMarket.Yaml
