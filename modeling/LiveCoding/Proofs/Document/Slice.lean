import LiveCoding.Proofs.Document.RoundTrip
import LiveCoding.Target
import Mathlib.Data.List.TakeDrop

/-!
# Slices side by side, and past the end

A slice is cut between two offsets, so slices that meet at a position make one slice if the
offsets of their ends are in order.  Offsets keep the order of positions as far as the last
line; a line past it counts as the last one, and the column still counts.  So a range that
ends past the last line ends at its own column of the last line, which may be in front of
the end of the text and even in front of the start of the range.

## Main Definitions

* `Document.endPosition`: the position behind the last character.

## Main Statements

* `Document.slice_append_slice`: slices side by side.
* `Document.slices_compose`: nothing is lost or doubled between slices, nor in the whole.
* `Document.offsetAt_le_iff`: where offsets keep the order of positions.
* `Document.slice_past_end`: what a range takes that ends past the text.
-/

namespace LiveCoding

theorem Position.origin_le (position : Position) : Position.origin ≤ position := by
  show 0 < position.line ∨ 0 = position.line ∧ 0 ≤ position.column
  omega

namespace Document

variable {document : Document}

/-! ### Slices side by side -/

/-- **Slices side by side** are one slice, if the offsets of their ends are in order. -/
theorem slice_append_slice {p q r : Position}
    (hpq : document.offsetAt p ≤ document.offsetAt q)
    (hqr : document.offsetAt q ≤ document.offsetAt r) :
    document.slice ⟨p, q⟩ ++ document.slice ⟨q, r⟩ = document.slice ⟨p, r⟩ := by
  obtain ⟨before, front, after, htext, hp, hq, hfront⟩ := document.exists_slice ⟨p, q⟩
  obtain ⟨before', back, after', htext', hq', hr, hback⟩ := document.exists_slice ⟨q, r⟩
  rw [Nat.max_eq_right hpq] at hq
  rw [Nat.max_eq_right hqr] at hr
  -- both slices are cut at the same seam
  have same : before ++ front ++ after = before' ++ (back ++ after') := by
    rw [List.append_assoc, ← htext, htext']
  obtain ⟨rfl, rfl⟩ := Utf8.cut_unique same (hq.symm.trans hq')
  have whole : document.text.toList = before ++ (front ++ back ++ after') := by
    rw [htext, List.append_assoc]
  have hstop : max (document.offsetAt p) (document.offsetAt r) =
      Utf8.size (before ++ (front ++ back)) := by
    rw [Nat.max_eq_right (Nat.le_trans hpq hqr), hr, List.append_assoc]
  have joined : document.slice ⟨p, r⟩ = String.ofList (front ++ back) :=
    slice_of_cut whole hp hstop
  rw [hfront, hback, joined, String.ofList_append]

variable (document)

/-- The position behind the last character. -/
def endPosition : Position :=
  document.positionAt document.text.utf8ByteSize

theorem offsetAt_origin : document.offsetAt .origin = 0 := by
  simp [offsetAt, offsetIn, Position.origin]

theorem offsetAt_endPosition : document.offsetAt document.endPosition =
    document.text.utf8ByteSize := by
  have whole : document.text.toList = document.text.toList ++ [] := (List.append_nil _).symm
  have back := offsetAt_positionAt whole (by rintro ⟨-, hfeed⟩; contradiction)
  rwa [Utf8.size_toList] at back

theorem slice_whole : document.slice ⟨.origin, document.endPosition⟩ = document.text := by
  have whole : document.text.toList = [] ++ (document.text.toList ++ []) := by simp
  have hstop : max (document.offsetAt .origin) (document.offsetAt document.endPosition) =
      Utf8.size ([] ++ document.text.toList) := by
    rw [offsetAt_origin, offsetAt_endPosition, List.nil_append, Utf8.size_toList, Nat.zero_max]
  have cut : document.slice ⟨.origin, document.endPosition⟩ =
      String.ofList document.text.toList := slice_of_cut whole document.offsetAt_origin hstop
  rw [cut, String.ofList_toList]

theorem ofFile?_eq : Target.ofFile? document =
    if isBlankText document.text then none
    else some ⟨document.text, ⟨.origin, document.endPosition⟩, .file⟩ := by
  have ordered : Range.between .origin document.endPosition = ⟨.origin, document.endPosition⟩ :=
    if_pos (Position.origin_le _)
  rw [← ordered]
  rfl

/-- **Nothing is lost or doubled between slices.**  Two slices that meet, in order and within
the lines of the text, are one, wherever their columns are; and the range of the whole
text is cut out as the whole text. -/
theorem slices_compose :
    (∀ p q r : Position, p ≤ q → q ≤ r → r.line < document.lineCount →
      document.slice ⟨p, q⟩ ++ document.slice ⟨q, r⟩ = document.slice ⟨p, r⟩) ∧
    document.slice ⟨.origin, document.positionAt document.text.utf8ByteSize⟩ = document.text ∧
    Target.ofFile? document =
      if isBlankText document.text then none
      else some ⟨document.text, ⟨.origin, document.positionAt document.text.utf8ByteSize⟩,
        .file⟩ := by
  refine ⟨?_, document.slice_whole, document.ofFile?_eq⟩
  intro p q r hpq hqr hr
  have hq : q.line < document.lineCount := by
    rcases hqr with hline | ⟨hline, -⟩ <;> omega
  exact slice_append_slice (offsetAt_mono hpq hq) (offsetAt_mono hqr hr)

/-! ### Past the end -/

/-- The end of the text is in the last line, behind its last column. -/
theorem positionIn_size {text : List Char} {lines : List Line} (h : Line.Cut text lines) :
    ∃ line, lines[lines.length - 1]? = some line ∧
      positionIn 0 (Utf8.size text) lines = ⟨lines.length - 1, line.width⟩ := by
  induction h with
  | @last body clean =>
    have whole : Line.text ⟨body, []⟩ = body ++ [] := rfl
    exact ⟨⟨body, []⟩, rfl, positionIn_singleton whole⟩
  | @next body ending rest lines clean ends more ih =>
    obtain ⟨line, hline, hposition⟩ := ih
    have behind := positionIn_behind_first rest ⟨body, ending⟩ more.ne_nil
    have some_line := List.length_pos_iff.mpr more.ne_nil
    obtain ⟨n, hn⟩ : ∃ n, lines.length = n + 1 := ⟨lines.length - 1, by omega⟩
    rw [hn, Nat.add_sub_cancel] at hline hposition
    rw [Line.text, List.append_assoc, hposition] at behind
    rw [List.length_cons, hn, Nat.add_sub_cancel]
    exact ⟨line, hline, behind⟩

theorem exists_last_line :
    ∃ line, document.lines[document.lineCount - 1]? = some line ∧
      document.endPosition = ⟨document.lineCount - 1, line.width⟩ := by
  have found := positionIn_size document.cut_lines
  rwa [Utf8.size_toList] at found

/-- The last line goes as far as the text. -/
theorem lineRange_last :
    document.lineRange (document.lineCount - 1) =
      some ⟨⟨document.lineCount - 1, 0⟩, document.endPosition⟩ := by
  obtain ⟨line, hline, hend⟩ := document.exists_last_line
  rw [lineRange, hline, Option.map_some, hend]

/-- In and past the last line, a position counts as one in it. -/
theorem offsetAt_of_past {position : Position} (past : document.lineCount ≤ position.line + 1) :
    document.offsetAt position = document.offsetAt ⟨document.lineCount - 1, position.column⟩ := by
  have hmin : min position.line (document.lines.length - 1) = document.lineCount - 1 := by
    rw [lineCount] at past ⊢
    omega
  rw [offsetAt, ← offsetIn_min, hmin, offsetAt]

/-- There, offsets are ordered by columns, of which there are no more than the line has. -/
theorem offsetAt_past_le_iff {p q : Position} (hp : document.lineCount ≤ p.line + 1)
    (hq : document.lineCount ≤ q.line + 1) :
    document.offsetAt p ≤ document.offsetAt q ↔
      min p.column document.endPosition.column ≤ q.column := by
  obtain ⟨line, hline, hend⟩ := document.exists_last_line
  obtain ⟨before, after, -, hoffset⟩ := exists_line hline
  rw [offsetAt_of_past document hp, offsetAt_of_past document hq, hoffset, hoffset,
    Utf8.size_append, Utf8.size_append, Nat.add_le_add_iff_left, Utf8.size_take_le_iff, hend]
  rfl

/-- **Where offsets keep the order of positions**: as far as the second one's line exists or
the first one is in front of the last line, and past it if the columns are in order too. -/
theorem offsetAt_le_iff {p q : Position} (h : p ≤ q) :
    document.offsetAt p ≤ document.offsetAt q ↔
      q.line < document.lineCount ∨ p.line + 1 < document.lineCount ∨
        min p.column document.endPosition.column ≤ q.column := by
  by_cases hq : q.line < document.lineCount
  · exact iff_of_true (offsetAt_mono h hq) (Or.inl hq)
  · by_cases hp : p.line + 1 < document.lineCount
    · have counted := document.offsetAt_of_past (by omega : document.lineCount ≤ q.line + 1)
      have inFront : p ≤ ⟨document.lineCount - 1, q.column⟩ := Or.inl (by dsimp only; omega)
      rw [counted]
      exact iff_of_true (offsetAt_mono inFront (by dsimp only; omega)) (Or.inr (Or.inl hp))
    · rw [offsetAt_past_le_iff document (by omega) (by omega)]
      simp only [hq, hp, false_or]

/-- A position in the text has the offset of its end only if it is its end. -/
theorem HasPosition.eq_endPosition_iff {position : Position} (h : document.HasPosition position) :
    position = document.endPosition ↔
      document.text.utf8ByteSize ≤ document.offsetAt position := by
  constructor
  · rintro rfl
    exact Nat.le_of_eq document.offsetAt_endPosition.symm
  · intro hle
    have hsize : document.offsetAt position = document.text.utf8ByteSize :=
      Nat.le_antisymm (document.isPlace_offsetAt position).le_utf8ByteSize hle
    rw [endPosition, ← hsize, h.positionAt_offsetAt]

/-- The bytes of a slice, from its start on. -/
theorem utf8Bytes_slice_from (range : Range) :
    utf8Bytes (document.slice range) =
      ((utf8Bytes document.text).drop (document.offsetAt range.start)).take
        (document.offsetAt range.stop - document.offsetAt range.start) := by
  rw [utf8Bytes_slice, List.drop_take]
  congr 1
  omega

/-- **What a range takes that ends at the end of the text or further on.**  It ends at its own
column of the last line, so it takes everything behind its start exactly if that column is
not in front of the end, or if nothing is behind its start.  As far as the last line that is
always so, and offsets keep the order of positions. -/
theorem slice_past_end {start stop : Position} (inside : document.HasPosition start)
    (past : document.endPosition ≤ stop) :
    document.lineRange (document.lineCount - 1) =
        some ⟨⟨document.lineCount - 1, 0⟩, document.endPosition⟩ ∧
      utf8Bytes (document.slice ⟨start, stop⟩) =
        ((utf8Bytes document.text).drop (document.offsetAt start)).take
          (document.offsetAt ⟨document.lineCount - 1, stop.column⟩ - document.offsetAt start) ∧
      (utf8Bytes (document.slice ⟨start, stop⟩) =
          (utf8Bytes document.text).drop (document.offsetAt start) ↔
        document.endPosition.column ≤ stop.column ∨ start = document.endPosition) ∧
      (stop.line < document.lineCount → document.endPosition.column ≤ stop.column) ∧
      ∀ p q : Position, p ≤ q →
        (document.offsetAt p ≤ document.offsetAt q ↔
          q.line < document.lineCount ∨ p.line + 1 < document.lineCount ∨
            min p.column document.endPosition.column ≤ q.column) := by
  obtain ⟨line, -, hend⟩ := document.exists_last_line
  have endPast : document.lineCount ≤ document.endPosition.line + 1 := by
    rw [hend]
    dsimp only
    omega
  have stopPast : document.lineCount ≤ stop.line + 1 := by
    rcases past with hlt | ⟨hsame, -⟩ <;> omega
  have bytes := document.utf8Bytes_slice_from ⟨start, stop⟩
  refine ⟨document.lineRange_last, ?_, ?_, ?_, fun p q h => document.offsetAt_le_iff h⟩
  · rw [bytes, ← document.offsetAt_of_past stopPast]
  · have reached := document.offsetAt_past_le_iff endPast stopPast
    have startWithin := (document.isPlace_offsetAt start).le_utf8ByteSize
    rw [offsetAt_endPosition, Nat.min_self] at reached
    rw [bytes, List.take_eq_self_iff, List.length_drop, length_utf8Bytes, ← reached,
      inside.eq_endPosition_iff]
    dsimp only
    omega
  · intro hstop
    rcases past with hlt | ⟨-, hcolumn⟩
    · omega
    · exact hcolumn

/-- Past the last line, a range ends at its own column: in front of the end, or at it. -/
theorem slice_past_end_second_column :
    let document := ofText "é\ncd"
    document.HasPosition ⟨0, 1⟩ ∧ document.endPosition ≤ ⟨2, 1⟩ ∧
      utf8Bytes (document.slice ⟨⟨0, 1⟩, ⟨2, 1⟩⟩) = utf8Bytes "\nc" ∧
      utf8Bytes (document.slice ⟨⟨0, 1⟩, ⟨2, 2⟩⟩) = utf8Bytes "\ncd" := by
  have inside : (ofText "é\ncd").HasPosition ⟨0, 1⟩ := ⟨_, rfl, by decide⟩
  have past : (ofText "é\ncd").endPosition ≤ ⟨2, 1⟩ := by decide
  have further : (ofText "é\ncd").endPosition ≤ ⟨2, 2⟩ := by decide
  obtain ⟨-, short, -⟩ := slice_past_end _ inside past
  obtain ⟨-, -, whole, -⟩ := slice_past_end _ inside further
  exact ⟨inside, past, short.trans (by decide), (whole.mpr (Or.inl (by decide))).trans (by decide)⟩

/-- The start of a line past the last counts as the start of the last line, and so is in
front of the end. -/
theorem slice_past_end_first_column :
    let document := ofText "ab\ncd"
    document.HasPosition .origin ∧ document.endPosition ≤ ⟨2, 0⟩ ∧
      document.offsetAt ⟨2, 0⟩ < document.offsetAt document.endPosition ∧
      document.slice ⟨.origin, ⟨2, 0⟩⟩ = "ab\n" ∧
      utf8Bytes (document.slice ⟨.origin, ⟨2, 0⟩⟩) ≠
        (utf8Bytes document.text).drop (document.offsetAt .origin) := by
  refine ⟨⟨_, rfl, by decide⟩, ?_, ?_, ?_, ?_⟩ <;> decide

end Document

end LiveCoding
