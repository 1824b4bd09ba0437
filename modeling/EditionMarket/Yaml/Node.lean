import EditionMarket.Yaml.Scalar
import EditionMarket.Yaml.Token

/-!
# Nodes of a document

The tokens of a document make up a tree of nodes: scalars, sequences, and mappings with entries of two
nodes each. An alias stands for the very node that has its anchor, and a mapping can be told from another
one with the same entries by its mark, which is the number of tokens left where it starts. A mapping that is
to be merged into another one comes in front of that one's own entries.

Only a document without tags can be read.
-/

namespace EditionMarket.Yaml

/-- A node of a document. -/
inductive Node
  | scalar (spelling : Spelling)
  | sequence (items : List Node)
  | mapping (entries : List (Node × Node)) (mark : Nat)
  /-- A mapping into which something is to be merged that is no mapping. -/
  | unmergeable
deriving Inhabited

namespace Node

/-! ## Merging -/

/-- A node that is left out. -/
def empty : Node := .scalar { chars := [], plain := true }

/-- Whether a node is the mark of a mapping to merge. -/
def isMerge : Node → Bool
  | .scalar spelling => spelling.plain && spelling.chars = ['<', '<']
  | _ => false

/-- The entries of a mapping. -/
def entries? : Node → Option (List (Node × Node))
  | .mapping entries _ => some entries
  | _ => none

/-- The entries that a node gives to a mapping into which it is merged: its own, or those of its items,
the last item first. -/
def merged? : Node → Option (List (Node × Node))
  | .mapping entries _ => some entries
  | .sequence items => (items.reverse.mapM entries?).map List.flatten
  | _ => none

/-- The mapping with given entries, after all that are to be merged into it. -/
def ofEntries (mark : Nat) (entries : List (Node × Node)) : Node :=
  let (marked, own) := entries.partition fun entry => entry.1.isMerge
  match marked.mapM fun entry => entry.2.merged? with
  | some merged => .mapping (merged.flatten ++ own) mark
  | none => .unmergeable

/-! ## Reading tokens -/

/-- What is left of the tokens, and the nodes that have an anchor. -/
structure Parser where
  tokens : List Token
  anchored : List (List Char × Node) := []

/-- Why the next token cannot stand where it stands. -/
def Parser.fault (parser : Parser) : Fault :=
  match parser.tokens with
  | .fault fault :: _ => fault
  | _ => .malformed

/-- Programs that read nodes. -/
abbrev ParserM := StateT Parser (Except Fault)

/-- Stops at the next token. -/
def unexpected {α : Type} : ParserM α := do throw (← get).fault

/-- Reads the next token if it is a given one. -/
def accept (token : Token) : ParserM Bool := do
  let parser ← get
  if parser.tokens.head? = some token then
    set { parser with tokens := parser.tokens.tail }
    return true
  else return false

/-- Reads a given token. -/
def expect (token : Token) : ParserM Unit := do
  if !(← accept token) then unexpected

/-- Whether the next token is one of the given ones. -/
def atAny (tokens : List Token) : ParserM Bool := do
  return (← get).tokens.head?.any tokens.contains

/-- What may stand at a place. -/
structure Place where
  /-- Blocks may stand there. -/
  block : Bool
  /-- Items of a sequence may stand there, as far left as the names around it. -/
  unindented : Bool := false

mutual

/-- Reads a node. -/
def node (place : Place) : Nat → ParserM Node
  | 0 => unexpected
  | fuel + 1 => do
    let parser ← get
    match parser.tokens with
    | .alias name :: rest =>
      set { parser with tokens := rest }
      match parser.anchored.lookup name with
      | some node => return node
      | none => throw .malformed
    | .anchor name :: rest =>
      if (parser.anchored.lookup name).isSome then throw .malformed
      set { parser with tokens := rest }
      let found ← (content place true fuel : ParserM Node)
      modify fun parser => { parser with anchored := (name, found) :: parser.anchored }
      return found
    | _ => content place false fuel

/-- Reads a node after its anchor. With an anchor, a node may be left out anywhere. -/
def content (place : Place) (anchored : Bool) : Nat → ParserM Node
  | 0 => unexpected
  | fuel + 1 => do
    let parser ← get
    match parser.tokens with
    | .scalar spelling :: rest =>
      set { parser with tokens := rest }
      return .scalar spelling
    | .flowSequence :: rest =>
      set { parser with tokens := rest }
      flowItems [] fuel
    | .flowMapping :: rest =>
      set { parser with tokens := rest }
      flowEntries rest.length [] fuel
    | token :: rest =>
      if token = .blockEntry && place.unindented then unindentedItems [] fuel
      else if token = .blockSequence && place.block then
        set { parser with tokens := rest }
        blockItems [] fuel
      else if token = .blockMapping && place.block then
        set { parser with tokens := rest }
        blockEntries rest.length [] fuel
      else if anchored then return empty
      else unexpected
    | [] => if anchored then return empty else unexpected

/-- Reads a node, which is left out if one of the given tokens comes next. -/
def nodeUnless (ends : List Token) (place : Place) : Nat → ParserM Node
  | 0 => unexpected
  | fuel + 1 => do if ← atAny ends then return empty else node place fuel

/-- Reads the items of a sequence in a block of its own. -/
def blockItems (items : List Node) : Nat → ParserM Node
  | 0 => unexpected
  | fuel + 1 => do
    if ← accept .blockEntry then
      let item ← nodeUnless [.blockEntry, .blockEnd] { block := true } fuel
      blockItems (item :: items) fuel
    else
      expect .blockEnd
      return .sequence items.reverse

/-- Reads the items of a sequence that stand as far left as the names around it. -/
def unindentedItems (items : List Node) : Nat → ParserM Node
  | 0 => unexpected
  | fuel + 1 => do
    if ← accept .blockEntry then
      let item ← nodeUnless [.blockEntry, .key, .value, .blockEnd] { block := true } fuel
      unindentedItems (item :: items) fuel
    else return .sequence items.reverse

/-- Reads the entries of a mapping in a block. -/
def blockEntries (mark : Nat) (entries : List (Node × Node)) : Nat → ParserM Node
  | 0 => unexpected
  | fuel + 1 => do
    let ends := [.key, .value, .blockEnd]
    let place : Place := { block := true, unindented := true }
    if ← accept .key then
      let name ← nodeUnless ends place fuel
      let value ← if ← accept .value then nodeUnless ends place fuel else pure empty
      blockEntries mark ((name, value) :: entries) fuel
    else
      expect .blockEnd
      return ofEntries mark entries.reverse

/-- Reads the items of a flow sequence. An item that is a name with a value is a mapping. -/
def flowItems (items : List Node) : Nat → ParserM Node
  | 0 => unexpected
  | fuel + 1 => do
    if ← accept .flowSequenceEnd then return .sequence items.reverse
    if items ≠ [] then expect .flowEntry
    if ← accept .flowSequenceEnd then return .sequence items.reverse
    let item ← if ← accept .key then do
        let mark := (← get).tokens.length
        let ends := [.flowEntry, .flowSequenceEnd]
        let name ← nodeUnless (.value :: ends) { block := false } fuel
        let value ← if ← accept .value then nodeUnless ends { block := false } fuel else pure empty
        pure (ofEntries mark [(name, value)])
      else node { block := false } fuel
    flowItems (item :: items) fuel

/-- Reads the entries of a flow mapping. An entry may have no value. -/
def flowEntries (mark : Nat) (entries : List (Node × Node)) : Nat → ParserM Node
  | 0 => unexpected
  | fuel + 1 => do
    if ← accept .flowMappingEnd then return ofEntries mark entries.reverse
    if !entries.isEmpty then expect .flowEntry
    if ← accept .flowMappingEnd then return ofEntries mark entries.reverse
    let entry ← if ← accept .key then do
        let ends := [.flowEntry, .flowMappingEnd]
        let name ← nodeUnless (.value :: ends) { block := false } fuel
        let value ← if ← accept .value then nodeUnless ends { block := false } fuel else pure empty
        pure (name, value)
      else do pure (← node { block := false } fuel, empty)
    flowEntries mark (entry :: entries) fuel

end

/-- Goes on over all marks of the end of a document. -/
def skipEnds : ParserM Unit :=
  modify fun parser => { parser with tokens := parser.tokens.dropWhile (· = .documentEnd) }

/-- Reads the only document, if there is any. Without a mark of its start it cannot be left out. -/
def document : ParserM Node := do
  let fuel := 4 * (← get).tokens.length + 4
  if (← get).tokens = [] then return empty
  let found ← if ← accept .documentStart then
      if (← get).tokens = [] then pure empty
      else nodeUnless [.documentStart, .documentEnd] { block := true } fuel
    else node { block := true } fuel
  skipEnds
  if (← get).tokens = [] then return found else unexpected

/-- The node that tokens make up. -/
def ofTokens (tokens : List Token) : Except Fault Node := document.run' { tokens := tokens }

end Node

end EditionMarket.Yaml
