import LiveCoding.Document.Line
import LiveCoding.Document.Source
import LiveCoding.Files.Path

/-!
# Documents

A document is a text seen as lines.  Byte offsets and positions are turned into
each other line by line: the offset of a position is the size of the lines before
it and of the columns before it, and what lies outside is clamped to the nearest
place inside, as an editor does.

## Main Definitions

* `Document`: a text and the file it came from, if any.
* `Document.offsetAt` and `Document.positionAt`: the two ways between offsets and
  positions.
* `Document.slice` and `Document.enclosingBlock`: what evaluation asks for.

## Design Notes

A position never points into the ending of a line, but an offset may: the offset
between a carriage return and its line feed belongs to the column after the
return.  An offset inside a character counts as that character's start.
-/

namespace LiveCoding

/-- A text to take code from. -/
structure Document where
  /-- The whole text. -/
  text : String
  /-- The file the text was read from. -/
  path : Option Path := none
  /-- The lines of the text, which is cut up only once. -/
  lines : List Line := Line.split text.toList
  /-- The lines are no more than another view of the text. -/
  lines_eq : lines = Line.split text.toList := by rfl
deriving DecidableEq, Repr

namespace Document

/-- A document without a file. -/
def ofText (text : String) : Document :=
  { text }

instance : Inhabited Document := ⟨ofText ""⟩

/-- How many lines there are; at least one. -/
def lineCount (document : Document) : Nat :=
  document.lines.length

/-- How many bytes the text takes. -/
def size (document : Document) : Nat :=
  Utf8.size document.text.toList

/-- The text of a line without its ending. -/
def lineAt (document : Document) (line : Nat) : Option String :=
  document.lines[line]?.map fun found => String.ofList found.body

/-- The range of a line without its ending. -/
def lineRange (document : Document) (line : Nat) : Option Range :=
  document.lines[line]?.map fun found => ⟨⟨line, 0⟩, ⟨line, found.width⟩⟩

/-- The byte offset of a position among lines.  A line past the last counts as
the last, and a column past the end of a line as its end. -/
def offsetIn (lines : List Line) (position : Position) : Nat :=
  let line := min position.line (lines.length - 1)
  let before := (lines.take line).foldr (fun earlier n => earlier.size + n) 0
  let body := (lines[line]?.map Line.body).getD []
  before + Utf8.size (body.take position.column)

/-- The byte offset of a position, clamped to the document. -/
def offsetAt (document : Document) (position : Position) : Nat :=
  offsetIn document.lines position

/-- The position of a byte offset among lines that start at line `line`. -/
def positionIn (line : Nat) (offset : Nat) : List Line → Position
  | [] => ⟨line, 0⟩
  | [last] => ⟨line, Utf8.charsWithin offset last.text⟩
  | first :: second :: rest =>
    if offset < first.size then ⟨line, Utf8.charsWithin offset first.text⟩
    else positionIn (line + 1) (offset - first.size) (second :: rest)

/-- The position of a byte offset.  One past the end is the end: no more characters
are counted than the last line has. -/
def positionAt (document : Document) (offset : Nat) : Position :=
  positionIn 0 offset document.lines

/-- The positions of both ends of a span. -/
def spanToRange (document : Document) (span : Span) : Range :=
  Range.between (document.positionAt span.start) (document.positionAt span.stop)

/-- The text in a range; nothing if its ends are reversed. -/
def slice (document : Document) (range : Range) : String :=
  let start := document.offsetAt range.start
  let stop := max start (document.offsetAt range.stop)
  String.ofList (Utf8.takeWithin (stop - start) (Utf8.dropWithin start document.text.toList))

/-- The range of the innermost block around a position. -/
def enclosingBlock (document : Document) (position : Position) : Option Range :=
  (Block.locate (utf8Bytes document.text) (document.offsetAt position)).map document.spanToRange

instance : TextSource Document where
  text := Document.text
  offsetAt := offsetAt
  positionAt := positionAt
  lineRange := lineRange
  slice := slice
  enclosingBlock := enclosingBlock

end Document

end LiveCoding
