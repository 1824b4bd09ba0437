/-!
# Blanks and line ends

`isBlank` holds of the white space of the Unicode standard. `splitLines` cuts a text at every
character that ends a line: besides line feed and carriage return these are the vertical tab, the
form feed, three information separators, next line, and the line and paragraph separators.
-/

namespace EditionMarket.Text

/-- White space of the Unicode standard. -/
def isBlank (c : Char) : Bool :=
  let n := c.toNat
  (9 ≤ n && n ≤ 13) || n == 32 || n == 133 || n == 160 || n == 5760 || (8192 ≤ n && n ≤ 8202)
    || n == 8232 || n == 8233 || n == 8239 || n == 8287 || n == 12288

/-- A text without the blanks at its two ends. -/
def trim (cs : List Char) : List Char :=
  ((cs.dropWhile isBlank).reverse.dropWhile isBlank).reverse

/-- Whether a character ends a line. -/
def endsLine (c : Char) : Bool :=
  let n := c.toNat
  (10 ≤ n && n ≤ 13) || (28 ≤ n && n ≤ 30) || n == 133 || n == 8232 || n == 8233

/-- The lines of a text, the first of them continuing `line`, which is held backwards. A carriage
return and the line feed after it end one line together; no line follows the last line end. -/
def splitLinesFrom (line : List Char) : List Char → List (List Char)
  | [] => if line.isEmpty then [] else [line.reverse]
  | '\r' :: '\n' :: rest => line.reverse :: splitLinesFrom [] rest
  | c :: rest =>
    if endsLine c then line.reverse :: splitLinesFrom [] rest else splitLinesFrom (c :: line) rest

/-- The lines of a text. -/
def splitLines (s : String) : List String := (splitLinesFrom [] s.toList).map String.ofList

/-- The characters of a text, with one line feed for each carriage return, line feed, or pair of
both. -/
def unifyBreaks : List Char → List Char
  | [] => []
  | '\r' :: '\n' :: rest => '\n' :: unifyBreaks rest
  | '\r' :: rest => '\n' :: unifyBreaks rest
  | c :: rest => c :: unifyBreaks rest

/-- A text whose lines all end in a line feed. -/
def unifyLines (s : String) : String := String.ofList (unifyBreaks s.toList)

end EditionMarket.Text
