import LiveCoding.Text.Utf8

/-!
# Lines of a document

A document is a sequence of lines.  A line ends at a line feed, a carriage
return, both in that order as one ending, a vertical tab, a form feed, U+0085,
U+2028 or U+2029.  The last line has no ending, and it is there even if it is
empty: an empty document has one line.

A line that was split off a text has its ending apart.  Where a line is given
whole, its last characters tell how much of it is content.  Of the lines of a text
both say the same (`Line.Cut.contentLength_text`).

## Main Definitions

* `Line`: the characters of a line and those of its ending.
* `Line.split`: the lines of a text.
* `Line.contentLength`: the content of a whole line, read off its back.
-/

namespace LiveCoding

/-- A line of a document. -/
structure Line where
  /-- The characters in front of the ending. -/
  body : List Char
  /-- The characters of the ending, none for the last line. -/
  ending : List Char
deriving DecidableEq, Repr, Inhabited

namespace Line

/-- A character that ends a line. -/
def isBreak (c : Char) : Bool :=
  c == '\n' || c == '\r' || c == '\x0b' || c == '\x0c' || c == '\u0085' || c == '\u2028' ||
    c == '\u2029'

/-- All characters of a line. -/
def text (line : Line) : List Char :=
  line.body ++ line.ending

/-- How many bytes a line takes, its ending counted. -/
def size (line : Line) : Nat :=
  Utf8.size line.body + Utf8.size line.ending

/-- How many columns a line has: its ending is in none of them. -/
def width (line : Line) : Nat :=
  line.body.length

/-- The lines found so far, newest first, then those of the text, of which `body`
is the beginning, newest character first. -/
def splitFrom (body : List Char) (found : List Line) : List Char → List Line
  | [] => (⟨body.reverse, []⟩ :: found).reverse
  | '\r' :: '\n' :: rest => splitFrom [] (⟨body.reverse, ['\r', '\n']⟩ :: found) rest
  | c :: rest =>
    if isBreak c then splitFrom [] (⟨body.reverse, [c]⟩ :: found) rest
    else splitFrom (c :: body) found rest

/-- The lines of a text. -/
def split (text : List Char) : List Line :=
  splitFrom [] [] text

/-- How many characters of a whole line are its content, read off its back: a break there
is none of it, nor is a carriage return in front of a line feed there. -/
def contentLength (text : List Char) : Nat :=
  match text.reverse with
  | [] => 0
  | '\n' :: '\r' :: rest => rest.length
  | c :: rest => if isBreak c then rest.length else rest.length + 1

end Line

end LiveCoding
