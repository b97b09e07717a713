import LiveCoding.Proofs.Document.Geometry

/-!
# Slices and blocks by default

A text source that knows no direct way to cut a range or to find a block gets both
from its text (`TextSource.cut`, `TextSource.blockAround`).  A document knows a direct
way, and the two come to the same: an offset of a document is always a place between
two characters, so there is never a reason to fall back on nothing.

## Main Definitions

* `TextSource.between?`: the default way to cut, where nothing found is told apart from
  nothing there.
* `Document.Bare`: a document seen by its text and its geometry alone.

## Main Statements

* `Document.between?_offsetAt`: the default way finds every slice of a document.
* `Document.bare_agrees`: the default ways and the direct ones are the same.
-/

namespace LiveCoding

namespace TextSource

/-- The text between two byte offsets, the second raised to the first if it is less,
unless one of them lies past the end or inside a character. -/
def between? (text : String) (start stop : Nat) : Option String := do
  let (_, rest) ← Utf8.splitAtByte? start text.toList
  let (piece, _) ← Utf8.splitAtByte? (max start stop - start) rest
  some (String.ofList piece)

/-- What cannot be cut is taken for nothing. -/
theorem cut_eq (text : String) (start stop : Nat) :
    cut text start stop = (between? text start stop).getD "" := by
  unfold cut between?
  cases Utf8.splitAtByte? start text.toList with
  | none => rfl
  | some sides =>
    obtain ⟨before, rest⟩ := sides
    cases h : Utf8.splitAtByte? (max start stop - start) rest with
    | none => simp [h]
    | some sides => simp [h]

end TextSource

namespace Document

/-- A document of which no more is known than its text and the ways between offsets
and positions, so that slices and blocks are the default ones. -/
structure Bare where
  document : Document

instance : TextSource Bare where
  text bare := bare.document.text
  offsetAt bare := bare.document.offsetAt
  positionAt bare := bare.document.positionAt
  lineRange bare := bare.document.lineRange

variable (document : Document)

/-- The offset of every position is a place between two characters. -/
theorem isValid_offsetAt (position : Position) :
    (String.Pos.Raw.mk (document.offsetAt position)).IsValid document.text := by
  obtain ⟨before, after, htext, hoffset, -⟩ := document.exists_offsetAt position
  exact Utf8.isValid_iff_exists_cut.mpr ⟨before, after, htext, hoffset⟩

/-- The default way finds every slice of a document. -/
theorem between?_offsetAt (range : Range) :
    TextSource.between? document.text (document.offsetAt range.start)
      (document.offsetAt range.stop) = some (document.slice range) := by
  obtain ⟨before, mid, after, htext, hstart, hmax, hslice⟩ := document.exists_slice range
  have hsize : max (document.offsetAt range.start) (document.offsetAt range.stop) -
      document.offsetAt range.start = Utf8.size mid := by
    rw [hmax, hstart, Utf8.size_append, Nat.add_sub_cancel_left]
  rw [TextSource.between?, hsize, hstart, htext, Utf8.splitAtByte?_size_append, hslice]
  simp [Utf8.splitAtByte?_size_append]

/-- **The default ways and the direct ones are the same.**  Every slice and every block
of a document are what its text and its geometry give by default, since the offset of
a position, however far outside, is a place in the text and no slice is missed. -/
theorem bare_agrees :
    (∀ range, TextSource.slice (Bare.mk document) range = TextSource.slice document range) ∧
      (∀ position, TextSource.enclosingBlock (Bare.mk document) position =
        TextSource.enclosingBlock document position) ∧
      (∀ position, (String.Pos.Raw.mk (document.offsetAt position)).IsValid document.text ∧
        document.offsetAt position ≤ document.text.utf8ByteSize) ∧
      ∀ range, TextSource.between? document.text (document.offsetAt range.start)
        (document.offsetAt range.stop) = some (document.slice range) := by
  refine ⟨?_, fun position => rfl, fun position => ?_, document.between?_offsetAt⟩
  · intro range
    show TextSource.cut document.text (document.offsetAt range.start)
      (document.offsetAt range.stop) = document.slice range
    rw [TextSource.cut_eq, document.between?_offsetAt]
    rfl
  · have place := document.isValid_offsetAt position
    exact ⟨place, place.le_rawEndPos⟩

end Document

end LiveCoding
