/-!
# Paths

A path is a row of names, parted by slashes. A point alone names nothing new and is left out, like a
slash too many.
-/

namespace EditionMarket

/-- A path to a file or a directory. -/
structure Path where
  absolute : Bool := false
  names : List String
deriving DecidableEq

namespace Path

/-- The path that a text spells. -/
def ofString (s : String) : Path :=
  { absolute := s.toList.head? = some '/'
    names := ((s.toList.splitOn '/').map String.ofList).filter fun name => name ≠ "" ∧ name ≠ "." }

/-- The text of a path. -/
def text (path : Path) : String :=
  let joined := String.intercalate "/" path.names
  if path.absolute then "/" ++ joined else if path.names = [] then "." else joined

/-- A path inside a directory; an absolute path starts anew. -/
def join (directory path : Path) : Path :=
  if path.absolute then path else { directory with names := directory.names ++ path.names }

/-- The directory that a path stands in. -/
def parent (path : Path) : Path := { path with names := path.names.dropLast }

end Path

end EditionMarket
