import LiveCoding.Block
import LiveCoding.Document.Position
import LiveCoding.Text.Utf8

/-!
# Text with a geometry

Choosing code to send needs only a text and the way between byte offsets and
positions.  `TextSource` is that view.  A source may also know a direct way to
cut a range or to find a block; one that does not gets both from its text.

## Main Definitions

* `TextSource`: the view.
* `TextSource.cut`: the default way to cut a range out of a text.
* `TextSource.blockAround`: the default way to find a block.
* `SingleLine`: the simplest source, a text taken as one line of bytes.
-/

namespace LiveCoding

namespace TextSource

/-- The text between two byte offsets, the second raised to the first if it is
less.  Nothing is cut if an offset lies past the end or inside a character. -/
def cut (text : String) (start stop : Nat) : String :=
  match Utf8.splitAtByte? start text.toList with
  | none => ""
  | some (_, rest) =>
    match Utf8.splitAtByte? (max start stop - start) rest with
    | none => ""
    | some (piece, _) => String.ofList piece

/-- The range of the block around a byte offset. -/
def blockAround (text : String) (positionAt : Nat → Position) (cursor : Nat) : Option Range :=
  (Block.locate (utf8Bytes text) cursor).map fun span =>
    Range.between (positionAt span.start) (positionAt span.stop)

end TextSource

/-- A text whose bytes can be addressed by position. -/
class TextSource (σ : Type) where
  /-- The whole text. -/
  text : σ → String
  /-- The byte offset of a position. -/
  offsetAt : σ → Position → Nat
  /-- The position of a byte offset. -/
  positionAt : σ → Nat → Position
  /-- The range of a line without its ending, if there is such a line. -/
  lineRange : σ → Nat → Option Range
  /-- The text in a range. -/
  slice : σ → Range → String := fun source range =>
    TextSource.cut (text source) (offsetAt source range.start) (offsetAt source range.stop)
  /-- The range of the innermost block around a position. -/
  enclosingBlock : σ → Position → Option Range := fun source position =>
    TextSource.blockAround (text source) (positionAt source) (offsetAt source position)

/-- A text taken as one line whose columns are byte offsets, without any clamping
of positions. -/
structure SingleLine where
  text : String

namespace SingleLine

/-- The text as line 0. -/
def lineRange (source : SingleLine) (line : Nat) : Option Range :=
  if line = 0 then some ⟨⟨0, 0⟩, ⟨0, source.text.utf8ByteSize⟩⟩ else none

instance : TextSource SingleLine where
  text := SingleLine.text
  offsetAt _ position := position.column
  positionAt _ offset := ⟨0, offset⟩
  lineRange := lineRange

end SingleLine

end LiveCoding
