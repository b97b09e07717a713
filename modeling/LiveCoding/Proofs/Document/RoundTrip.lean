import LiveCoding.Proofs.Document.Geometry
import Mathlib.Data.Set.Function
import Mathlib.Order.Bounds.Basic

/-!
# There and back between offsets and positions

Not every offset has a position of its own, and not every position lies in the text.
From an offset to its position and back is rounding down, to the next place that a
position can point to; from a position to its offset and back is clamping, of the line
to the last one and of the column to the end of its line.

## Main Definitions

* `Document.IsPlace`: an offset that a position can point to.
* `Document.HasPosition`: a position that lies in the text.

## Main Statements

* `Document.positionAt_mono`, `Document.offsetAt_mono`: the two ways keep the order.
* `Document.offsetAt_positionAt_le`: no way back leads further on.
* `Document.offsetAt_rounds_down`: an offset comes back as the greatest place up to it.
* `Document.positionAt_clamps`: a position comes back clamped.

## Design Notes

Rounding is not computed.  The way back keeps the order, does not lead further on, ends
at a place and leaves places where they are; the greatest place is the only result that
all four allow.

Offsets keep the order of positions only up to the last line.  A position in a line past
it counts as one in the last line, with its own column, and may so come to lie in front
of one that it is behind.
-/

namespace LiveCoding

namespace Document

/-! ### Line by line -/

section Lines

variable {lines : List Line}

theorem positionIn_line_lt (h : lines ≠ []) (offset : Nat) :
    (positionIn 0 offset lines).line < lines.length := by
  induction lines generalizing offset with
  | nil => contradiction
  | cons first rest ih =>
    by_cases hrest : rest = []
    · subst hrest
      simp [positionIn]
    · rcases Nat.lt_or_ge offset (Utf8.size first.text) with hlt | hle
      · simp [positionIn_cons_of_lt hrest hlt]
      · have behind := ih hrest (offset - Utf8.size first.text)
        rw [positionIn_cons_of_le hrest hle, List.length_cons]
        exact Nat.succ_lt_succ behind

/-- A greater offset has no lesser position. -/
theorem positionIn_mono {offset offset' : Nat} (h : offset ≤ offset') (lines : List Line) :
    positionIn 0 offset lines ≤ positionIn 0 offset' lines := by
  induction lines generalizing offset offset' with
  | nil => exact Or.inr ⟨rfl, Nat.le_refl _⟩
  | cons first rest ih =>
    have inLine := Utf8.charsWithin_mono h first.text
    by_cases hrest : rest = []
    · subst hrest
      exact Or.inr ⟨rfl, inLine⟩
    · -- both in the first line, or the second behind it, or both
      rcases Nat.lt_or_ge offset' (Utf8.size first.text) with hlt' | hle'
      · rw [positionIn_cons_of_lt hrest hlt', positionIn_cons_of_lt hrest (by omega)]
        exact Or.inr ⟨rfl, inLine⟩
      · rw [positionIn_cons_of_le hrest hle']
        rcases Nat.lt_or_ge offset (Utf8.size first.text) with hlt | hle
        · rw [positionIn_cons_of_lt hrest hlt]
          exact Or.inl (Nat.succ_pos _)
        · rw [positionIn_cons_of_le hrest hle]
          rcases ih (Nat.sub_le_sub_right h (Utf8.size first.text)) with hline | ⟨hline, hcolumn⟩
          · exact Or.inl (Nat.succ_lt_succ hline)
          · exact Or.inr ⟨congrArg (· + 1) hline, hcolumn⟩

/-- The columns of a line that lie within so many bytes of it. -/
theorem size_body_take_le (line : Line) (offset : Nat) :
    Utf8.size (line.body.take (Utf8.charsWithin offset line.text)) ≤ offset := by
  refine Nat.le_trans (Utf8.size_le_of_prefix ?_) (Utf8.size_take_charsWithin_le offset line.text)
  rw [Line.text, List.take_append]
  exact List.prefix_append _ _

/-- The way back does not lead further on. -/
theorem offsetIn_positionIn_le (lines : List Line) (offset : Nat) :
    offsetIn lines (positionIn 0 offset lines) ≤ offset := by
  induction lines generalizing offset with
  | nil => simp [offsetIn, positionIn]
  | cons first rest ih =>
    by_cases hrest : rest = []
    · subst hrest
      rw [offsetIn_singleton]
      exact size_body_take_le first offset
    · rcases Nat.lt_or_ge offset (Utf8.size first.text) with hlt | hle
      · rw [positionIn_cons_of_lt hrest hlt, offsetIn_cons_zero]
        exact size_body_take_le first offset
      · have behind := ih (offset - Utf8.size first.text)
        rw [positionIn_cons_of_le hrest hle, offsetIn_cons_succ first hrest]
        show Utf8.size first.text +
          offsetIn rest (positionIn 0 (offset - Utf8.size first.text) rest) ≤ offset
        omega

/-- A position further on has no lesser offset, if there is such a line. -/
theorem offsetIn_mono {p q : Position} (h : p ≤ q) (hq : q.line < lines.length) :
    offsetIn lines p ≤ offsetIn lines q := by
  induction lines generalizing p q with
  | nil => contradiction
  | cons first rest ih =>
    obtain ⟨line, column⟩ := p
    obtain ⟨line', column'⟩ := q
    have h : line < line' ∨ line = line' ∧ column ≤ column' := h
    cases line' with
    | zero =>
      obtain ⟨rfl, hcolumn⟩ : line = 0 ∧ column ≤ column' := by omega
      rw [offsetIn_cons_zero, offsetIn_cons_zero]
      exact Utf8.size_le_of_prefix (List.take_prefix_take_left hcolumn)
    | succ line' =>
      have hq : line' < rest.length := Nat.lt_of_succ_lt_succ hq
      have hrest : rest ≠ [] := by
        rintro rfl
        contradiction
      rw [offsetIn_cons_succ first hrest]
      cases line with
      | zero =>
        have inLine : first.body.take column <+: first.text :=
          (List.take_prefix _ _).trans (List.prefix_append _ _)
        have := Utf8.size_le_of_prefix inLine
        rw [offsetIn_cons_zero]
        omega
      | succ line =>
        have further : (⟨line, column⟩ : Position) ≤ ⟨line', column'⟩ := by
          show line < line' ∨ line = line' ∧ column ≤ column'
          omega
        have behind := ih further hq
        rw [offsetIn_cons_succ first hrest]
        omega

/-- A line past the last counts as the last. -/
theorem offsetIn_min (lines : List Line) (position : Position) :
    offsetIn lines ⟨min position.line (lines.length - 1), position.column⟩ =
      offsetIn lines position := by
  simp [offsetIn]

/-- **From a position to its offset and back**: a column past the end of its line is
clamped. -/
theorem positionIn_offsetIn {text : List Char} (h : Line.Cut text lines) {i : Nat} {line : Line}
    (hi : lines[i]? = some line) (column : Nat) :
    positionIn 0 (offsetIn lines ⟨i, column⟩) lines = ⟨i, min column line.width⟩ := by
  induction h generalizing i with
  | @last body clean =>
    obtain ⟨rfl, rfl⟩ : i = 0 ∧ ⟨body, []⟩ = line := by
      cases i with
      | zero => simpa using hi
      | succ i => simp at hi
    have last : Line.text ⟨body, []⟩ = body.take column ++ body.drop column := by
      rw [Line.text, List.append_nil, List.take_append_drop]
    rw [offsetIn_singleton, positionIn_singleton last, List.length_take]
    rfl
  | @next body ending rest lines clean ends more ih =>
    cases i with
    | zero =>
      obtain rfl : ⟨body, ending⟩ = line := by simpa using hi
      -- the column is in front of the ending, so some character of the line is behind it
      obtain ⟨c, tail, hbehind⟩ : ∃ c tail, body.drop column ++ ending = c :: tail :=
        List.exists_cons_of_ne_nil (by simp [ends.ne_nil])
      have inFirst : Line.text ⟨body, ending⟩ = body.take column ++ c :: tail := by
        rw [Line.text, ← hbehind, ← List.append_assoc, List.take_append_drop]
      rw [offsetIn_cons_zero, positionIn_in_first more.ne_nil inFirst, List.length_take]
      rfl
    | succ i =>
      have back := ih (i := i) (by simpa using hi)
      rw [offsetIn_cons_succ _ more.ne_nil,
        positionIn_cons_of_le more.ne_nil (Nat.le_add_right _ _), Nat.add_sub_cancel_left, back]

end Lines

/-! ### Places -/

variable (document : Document)

/-- Between a carriage return and the line feed that belongs to it. -/
def SplitsEnding (offset : Nat) : Prop :=
  ∃ before after, document.text.toList = before ++ '\r' :: '\n' :: after ∧
    offset = Utf8.size before + 1

/-- An offset that a position can point to: between two characters, but not between
those of one ending. -/
def IsPlace (offset : Nat) : Prop :=
  (String.Pos.Raw.mk offset).IsValid document.text ∧ ¬ document.SplitsEnding offset

/-- A position that lies in the text: there is such a line, and the column is not past
its end. -/
def HasPosition (position : Position) : Prop :=
  ∃ range, document.lineRange position.line = some range ∧
    position.column ≤ range.stop.column

variable {document}

/-- Places, as cuts of the text. -/
theorem isPlace_iff {offset : Nat} :
    document.IsPlace offset ↔ ∃ before after, document.text.toList = before ++ after ∧
      offset = Utf8.size before ∧ ¬ InsideEnding before after := by
  rw [IsPlace, Utf8.isValid_iff_exists_cut]
  constructor
  · rintro ⟨⟨before, after, htext, hoffset⟩, whole⟩
    refine ⟨before, after, htext, hoffset, ?_⟩
    rintro ⟨hreturn, hfeed⟩
    obtain ⟨front, rfl⟩ := List.getLast?_eq_some_iff.mp hreturn
    obtain ⟨rest, rfl⟩ := List.head?_eq_some_iff.mp hfeed
    exact whole ⟨front, rest, by simpa using htext, by rw [hoffset, Utf8.size_append]; rfl⟩
  · rintro ⟨before, after, htext, hoffset, outside⟩
    refine ⟨⟨before, after, htext, hoffset⟩, ?_⟩
    rintro ⟨front, rest, htext', hoffset'⟩
    have same : before ++ after = (front ++ ['\r']) ++ '\n' :: rest := by
      rw [← htext, htext', List.append_assoc]
      rfl
    have hsize : Utf8.size before = Utf8.size (front ++ ['\r']) := by
      rw [← hoffset, hoffset', Utf8.size_append]
      rfl
    obtain ⟨rfl, rfl⟩ := Utf8.cut_unique same hsize
    exact outside ⟨by simp, by simp⟩

theorem isPlace_offsetAt (document : Document) (position : Position) :
    document.IsPlace (document.offsetAt position) :=
  isPlace_iff.mpr (document.exists_offsetAt position)

/-- A place comes back as it was. -/
theorem IsPlace.offsetAt_positionAt {offset : Nat} (h : document.IsPlace offset) :
    document.offsetAt (document.positionAt offset) = offset := by
  obtain ⟨before, after, htext, rfl, outside⟩ := isPlace_iff.mp h
  exact Document.offsetAt_positionAt htext outside

theorem IsPlace.le_utf8ByteSize {offset : Nat} (h : document.IsPlace offset) :
    offset ≤ document.text.utf8ByteSize :=
  h.1.le_rawEndPos

/-! ### Documents -/

theorem positionAt_mono {offset offset' : Nat} (h : offset ≤ offset') :
    document.positionAt offset ≤ document.positionAt offset' :=
  positionIn_mono h document.lines

theorem offsetAt_mono {p q : Position} (h : p ≤ q) (hq : q.line < document.lineCount) :
    document.offsetAt p ≤ document.offsetAt q :=
  offsetIn_mono h hq

theorem positionAt_line_lt (document : Document) (offset : Nat) :
    (document.positionAt offset).line < document.lineCount :=
  positionIn_line_lt document.cut_lines.ne_nil offset

theorem offsetAt_positionAt_le (document : Document) (offset : Nat) :
    document.offsetAt (document.positionAt offset) ≤ offset :=
  offsetIn_positionIn_le document.lines offset

/-- There and back keeps the order. -/
theorem offsetAt_positionAt_mono {offset offset' : Nat} (h : offset ≤ offset') :
    document.offsetAt (document.positionAt offset) ≤
      document.offsetAt (document.positionAt offset') :=
  offsetAt_mono (positionAt_mono h) (document.positionAt_line_lt offset')

/-- **From an offset to its position and back is rounding down**: to the greatest place
that is not past the offset, nor past the end of the text.  A place stays where it
is. -/
theorem offsetAt_rounds_down (document : Document) (offset : Nat) :
    IsGreatest {place | place ≤ min offset document.text.utf8ByteSize ∧ document.IsPlace place}
        (document.offsetAt (document.positionAt offset)) ∧
      (document.IsPlace offset → document.offsetAt (document.positionAt offset) = offset) := by
  have back := document.isPlace_offsetAt (document.positionAt offset)
  refine ⟨⟨⟨?_, back⟩, ?_⟩, IsPlace.offsetAt_positionAt⟩
  · exact Nat.le_min.mpr ⟨document.offsetAt_positionAt_le offset, back.le_utf8ByteSize⟩
  · rintro place ⟨hle, hplace⟩
    calc place = document.offsetAt (document.positionAt place) := hplace.offsetAt_positionAt.symm
      _ ≤ document.offsetAt (document.positionAt offset) :=
        offsetAt_positionAt_mono (Nat.le_trans hle (Nat.min_le_left _ _))

/-- Inside `é`, and between the two characters of an ending. -/
example :
    let document := ofText "é\r\n)"
    document.offsetAt (document.positionAt 1) = 0 ∧
      document.offsetAt (document.positionAt 3) = 2 := by
  decide

/-- The line that a position counts as one of. -/
theorem exists_lineRange (document : Document) (position : Position) :
    ∃ line, document.lines[min position.line (document.lineCount - 1)]? = some line ∧
      document.lineRange (min position.line (document.lineCount - 1)) =
        some ⟨⟨min position.line (document.lineCount - 1), 0⟩,
          ⟨min position.line (document.lineCount - 1), line.width⟩⟩ := by
  have some_line := List.length_pos_iff.mpr document.cut_lines.ne_nil
  have hlt : min position.line (document.lineCount - 1) < document.lines.length := by
    rw [lineCount]
    omega
  refine ⟨document.lines[min position.line (document.lineCount - 1)],
    List.getElem?_eq_getElem hlt, ?_⟩
  rw [lineRange, List.getElem?_eq_getElem hlt, Option.map_some]

/-- From a position to its offset and back, clamped. -/
theorem positionAt_offsetAt {position : Position} {line : Line}
    (h : document.lines[min position.line (document.lineCount - 1)]? = some line) :
    document.positionAt (document.offsetAt position) =
      ⟨min position.line (document.lineCount - 1), min position.column line.width⟩ := by
  rw [offsetAt, ← offsetIn_min]
  exact positionIn_offsetIn document.cut_lines h position.column

/-- A position in the text comes back as it was. -/
theorem HasPosition.positionAt_offsetAt {position : Position}
    (h : document.HasPosition position) :
    document.positionAt (document.offsetAt position) = position := by
  obtain ⟨range, hrange, hcolumn⟩ := h
  obtain ⟨line, hline, rfl⟩ := Option.map_eq_some_iff.mp hrange
  have hlt : position.line < document.lines.length := (List.getElem?_eq_some_iff.mp hline).1
  have hmin : min position.line (document.lineCount - 1) = position.line := by
    rw [lineCount]
    omega
  have hwidth : min position.column line.width = position.column := Nat.min_eq_left hcolumn
  rw [← hmin] at hline
  rw [Document.positionAt_offsetAt hline, hmin, hwidth]

/-- **From a position to its offset and back is clamping**, of the line to the last one
and of the column to the end of the line.  So positions in the text have offsets of
their own, and places between characters have positions of their own, in the same
order. -/
theorem positionAt_clamps (document : Document) :
    (∀ position : Position, ∃ range,
      document.lineRange (min position.line (document.lineCount - 1)) = some range ∧
      document.positionAt (document.offsetAt position) =
        ⟨min position.line (document.lineCount - 1),
          min position.column range.stop.column⟩) ∧
      Set.InjOn document.offsetAt {position | document.HasPosition position} ∧
      ∀ offset offset', (String.Pos.Raw.mk offset).IsValid document.text →
        (String.Pos.Raw.mk offset').IsValid document.text → offset < offset' →
        document.positionAt offset < document.positionAt offset' := by
  refine ⟨fun position => ?_, ?_, ?_⟩
  · obtain ⟨line, hline, hrange⟩ := document.exists_lineRange position
    exact ⟨_, hrange, positionAt_offsetAt hline⟩
  · intro p hp q hq same
    rw [← hp.positionAt_offsetAt, ← hq.positionAt_offsetAt, same]
  · intro offset offset' valid valid' hlt
    obtain ⟨before, after, htext, rfl⟩ := Utf8.isValid_iff_exists_cut.mp valid
    obtain ⟨before', after', htext', rfl⟩ := Utf8.isValid_iff_exists_cut.mp valid'
    exact positionAt_lt ⟨after, htext.symm⟩ ⟨after', htext'.symm⟩ hlt

end Document

end LiveCoding
