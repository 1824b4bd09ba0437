import EditionMarket.Files.Path
import EditionMarket.Table

/-!
# Trees of files

A tree of files maps places to directories, files and links. A place is the row of names that leads to
it from the root; the root is always there. A link leads on to another path, which starts in the
directory of the link.
-/

namespace EditionMarket

/-- What stands at a place. -/
inductive FileEntry
  | directory
  | file (text : String)
  | link (target : String)
deriving DecidableEq

/-- A place in a tree. -/
abbrev Place := List String

/-- A tree of files. -/
abbrev FileTree := Table Place FileEntry

/-- Why files cannot be worked on. -/
inductive FileFault
  /-- There is nothing at this path. -/
  | notFound (path : Path)
  /-- A path leads through something that is no directory. -/
  | notDirectory
  /-- A file was expected, and there is a directory. -/
  | isDirectory
  /-- There is something at this path already. -/
  | exists
  /-- Links lead back to themselves. -/
  | loop
deriving DecidableEq

/-- Programs that work on files. One that stops with a fault leaves what it has done so far. -/
abbrev FilesM := EStateM FileFault FileTree

/-- Makes one change to the files, if it can be made. -/
def FilesM.change (step : FileTree → Except FileFault FileTree) : FilesM Unit := fun tree =>
  match step tree with
  | .ok tree => .ok () tree
  | .error fault => .error fault tree

namespace FileTree

/-! ## Finding places -/

/-- What stands at a place. -/
def entry? (tree : FileTree) (place : Place) : Option FileEntry :=
  if place = [] then some .directory else tree[place]?

/-- The place that a row of names leads to from another place. `links` bounds the number of links on
the way, and `through` says whether a link in the last place is followed. The last name need not be
there. -/
def resolve (tree : FileTree) (path : Path) (through : Bool) (base : Place) (names : List String)
    (links : Nat) : Except FileFault Place :=
  match names with
  | [] => .ok base
  | name :: rest =>
    if name = ".." then resolve tree path through base.dropLast rest links
    else
      let here := base ++ [name]
      match tree.entry? here with
      | some .directory => resolve tree path through here rest links
      | some (.file _) => if rest = [] then .ok here else .error .notDirectory
      | some (.link target) =>
        if rest = [] && !through then .ok here
        else match links with
          | 0 => .error .loop
          -- What is left of the path is looked for where the link leads.
          | links + 1 =>
            let target := Path.ofString target
            let start := if target.absolute then [] else base
            resolve tree path through start (target.names ++ rest) links
      | none => if rest = [] then .ok here else .error (.notFound path)
termination_by (links, names.length)

/-- How many links a path may lead over. -/
def mostLinks : Nat := 40

/-- The place of a path, after the last link. -/
def place (tree : FileTree) (path : Path) : Except FileFault Place :=
  resolve tree path true [] path.names mostLinks

/-- The place of a path, where a link may stand. -/
def linkPlace (tree : FileTree) (path : Path) : Except FileFault Place :=
  resolve tree path false [] path.names mostLinks

/-- What stands at a path, after the last link. -/
def find? (tree : FileTree) (path : Path) : Option FileEntry :=
  match tree.place path with
  | .ok place => tree.entry? place
  | .error _ => none

/-- Whether a link stands at a path. -/
def isLink (tree : FileTree) (path : Path) : Bool :=
  match tree.linkPlace path with
  | .ok place => (tree.entry? place).any fun
    | .link _ => true
    | _ => false
  | .error _ => false

/-! ## Files -/

/-- The text of a file. -/
def read (tree : FileTree) (path : Path) : Except FileFault String := do
  let place ← tree.place path
  match tree.entry? place with
  | some (.file text) => return text
  | some _ => .error .isDirectory
  | none => .error (.notFound path)

/-- Gives a file the text that `change` makes of the one it has, or of no text if it is new. -/
def update (tree : FileTree) (path : Path) (change : String → String) :
    Except FileFault FileTree := do
  let place ← tree.place path
  match tree.entry? place with
  | some (.file text) => return tree.put place (.file (change text))
  | some _ => .error .isDirectory
  | none => return tree.put place (.file (change ""))

/-- Gives a file a text, in place of the one it had. -/
def write (tree : FileTree) (path : Path) (text : String) : Except FileFault FileTree :=
  tree.update path fun _ => text

/-- Adds a text at the end of a file. -/
def append (tree : FileTree) (path : Path) (text : String) : Except FileFault FileTree :=
  tree.update path (· ++ text)

/-! ## Directories and links -/

/-- Makes one directory, if it is not there. -/
def makeDirectory (tree : FileTree) (path : Path) : Except FileFault FileTree := do
  if tree.find? path = some .directory then return tree
  let place ← tree.linkPlace path
  match tree.entry? place with
  | some _ => .error .exists
  | none => return tree.put place .directory

/-- Makes the directory of the first `count` names of a path. Where the directory that it stands in is
not there, that one is made first. -/
def makeDirectoriesTo (path : Path) : Nat → FilesM Unit
  | 0 => return ()
  | count + 1 => do
    let here := { path with names := path.names.take (count + 1) }
    match (← get).makeDirectory here with
    | .ok tree => set tree
    | .error (.notFound _) =>
      makeDirectoriesTo path count
      FilesM.change (·.makeDirectory here)
    | .error fault => throw fault

/-- Makes a directory and those that it stands in, if they are not there. -/
def makeDirectories (path : Path) : FilesM Unit := makeDirectoriesTo path path.names.length

/-- Removes what stands at a place, and all that stands in it. -/
def dropPlace (tree : FileTree) (place : Place) : FileTree :=
  tree.filter fun other _ => !place.isPrefixOf other

/-- Removes what stands at a path: a file, a link, or a directory with all that stands in it. -/
def remove (tree : FileTree) (path : Path) : Except FileFault FileTree := do
  let place ← tree.linkPlace path
  match tree.entry? place with
  | some _ => return tree.dropPlace place
  | none => .error (.notFound path)

/-- Makes a link to a target. -/
def link (tree : FileTree) (path : Path) (target : String) : Except FileFault FileTree := do
  let place ← tree.linkPlace path
  match tree.entry? place with
  | some _ => .error .exists
  | none => return tree.put place (.link target)

/-! ## Listing -/

/-- Everything in a tree, in the order of the texts of the paths. -/
def list (tree : FileTree) : List (String × FileEntry) :=
  (tree.entries.map fun (place, entry) => (Path.text { names := place }, entry)).mergeSort
    fun a b => decide (a.1 ≤ b.1)

end FileTree

end EditionMarket
