import LiveCoding.Document.Basic
import LiveCoding.Proofs.Document.Line
import LiveCoding.Proofs.Text.Boundary

/-!
# Offsets and positions

Code is found by byte offsets and reported by positions, so every place goes back
and forth between the two.  This module says when it comes back to where it was:
always at a cut of the text, unless the cut separates a carriage return from the
line feed that belongs to it.

## Main Definitions

* `Document.InsideEnding`: the one kind of cut that no position points to.

## Main Statements

* `Document.offsetAt_positionAt`: from a cut to its position and back.
* `Document.positionAt_lt`: positions keep the order of cuts, strictly.
* `Document.positionAt_le`: no position lies further out than the text is long.
* `Document.exists_offsetAt`: the offset of any position, however far outside, is a
  cut.
* `Document.exists_line`: where a line of the text stands.
* `Document.utf8Bytes_slice`: the bytes of a slice.
* `Document.slice_columns`: a slice within a line, and `Document.slice_line`: the whole
  line.

## Design Notes

All statements about lines are inductions over `Line.Cut`, with two cases for where
the cut of the text falls: in the first line, or behind it (`cut_cases`).
-/

namespace LiveCoding

theorem Position.lt_iff (p q : Position) :
    p < q ↔ p.line < q.line ∨ p.line = q.line ∧ p.column < q.column := by
  obtain ⟨line, column⟩ := p
  obtain ⟨line', column'⟩ := q
  show (line < line' ∨ line = line' ∧ column ≤ column') ∧
    Position.mk line column ≠ Position.mk line' column' ↔
    line < line' ∨ line = line' ∧ column < column'
  rw [Ne, Position.mk.injEq]
  omega

theorem Position.le_of_lt {p q : Position} (h : p < q) : p ≤ q := h.1

namespace Document

/-- A cut between a carriage return and the line feed that belongs to it. -/
def InsideEnding (before after : List Char) : Prop :=
  before.getLast? = some '\r' ∧ after.head? = some '\n'

/-- A cut of a text falls into a front of it or behind that front. -/
theorem cut_cases {before after first rest : List Char} (h : before ++ after = first ++ rest) :
    (∃ c more, first = before ++ c :: more ∧ after = c :: more ++ rest) ∨
      ∃ before', before = first ++ before' ∧ rest = before' ++ after := by
  rcases List.append_eq_append_iff.mp h with ⟨more, hfirst, hafter⟩ | ⟨before', hbefore, hrest⟩
  · cases more with
    | nil => exact Or.inr ⟨[], by simpa using hfirst.symm, by simpa using hafter.symm⟩
    | cons c more => exact Or.inl ⟨c, more, hfirst, hafter⟩
  · exact Or.inr ⟨before', hbefore, hrest⟩

/-! ### Line by line -/

theorem offsetIn_singleton (last : Line) (position : Position) :
    offsetIn [last] position = Utf8.size (last.body.take position.column) := by
  simp [offsetIn]

theorem offsetIn_cons_zero (first : Line) (rest : List Line) (column : Nat) :
    offsetIn (first :: rest) ⟨0, column⟩ = Utf8.size (first.body.take column) := by
  simp [offsetIn]

theorem offsetIn_cons_succ (first : Line) {rest : List Line} (hrest : rest ≠ [])
    (line column : Nat) :
    offsetIn (first :: rest) ⟨line + 1, column⟩ =
      Utf8.size first.text + offsetIn rest ⟨line, column⟩ := by
  obtain ⟨n, hn⟩ : ∃ n, rest.length = n + 1 :=
    ⟨rest.length - 1, by have := List.length_pos_iff.mpr hrest; omega⟩
  have hmin : min (line + 1) ((first :: rest).length - 1) = min line (rest.length - 1) + 1 := by
    rw [List.length_cons]
    omega
  simp only [offsetIn, hmin, List.take_succ_cons, List.foldr_cons, List.getElem?_cons_succ,
    Line.size, Line.text, Utf8.size_append]
  omega

/-- The number of the first line is added to the number of the line found. -/
theorem positionIn_eq (line offset : Nat) (lines : List Line) :
    positionIn line offset lines =
      ⟨line + (positionIn 0 offset lines).line, (positionIn 0 offset lines).column⟩ := by
  induction lines generalizing line offset with
  | nil => rfl
  | cons first rest ih =>
    cases rest with
    | nil => rfl
    | cons second rest =>
      rw [positionIn, positionIn]
      split
      · rfl
      · rw [ih (line + 1), ih (0 + 1)]
        simp only [Position.mk.injEq, and_true]
        omega

theorem positionIn_singleton {before after : List Char} {last : Line}
    (h : last.text = before ++ after) :
    positionIn 0 (Utf8.size before) [last] = ⟨0, before.length⟩ := by
  rw [positionIn, h, Utf8.charsWithin_size_append]

theorem positionIn_cons_of_lt {offset : Nat} {first : Line} {rest : List Line}
    (hrest : rest ≠ []) (h : offset < Utf8.size first.text) :
    positionIn 0 offset (first :: rest) = ⟨0, Utf8.charsWithin offset first.text⟩ := by
  obtain ⟨second, rest, rfl⟩ := List.exists_cons_of_ne_nil hrest
  rw [Line.text, Utf8.size_append] at h
  rw [positionIn, if_pos (by rw [Line.size]; exact h)]

theorem positionIn_cons_of_le {offset : Nat} {first : Line} {rest : List Line}
    (hrest : rest ≠ []) (h : Utf8.size first.text ≤ offset) :
    positionIn 0 offset (first :: rest) =
      ⟨(positionIn 0 (offset - Utf8.size first.text) rest).line + 1,
        (positionIn 0 (offset - Utf8.size first.text) rest).column⟩ := by
  obtain ⟨second, rest, rfl⟩ := List.exists_cons_of_ne_nil hrest
  have hsize : Utf8.size first.text = first.size := by
    rw [Line.text, Utf8.size_append, Line.size]
  rw [hsize] at h ⊢
  rw [positionIn, if_neg (by omega), positionIn_eq]
  simp only [Position.mk.injEq, and_true]
  omega

/-- A cut in front of a character of the first line. -/
theorem positionIn_in_first {before more : List Char} {c : Char} {first : Line}
    {rest : List Line} (hrest : rest ≠ []) (h : first.text = before ++ c :: more) :
    positionIn 0 (Utf8.size before) (first :: rest) = ⟨0, before.length⟩ := by
  have := c.utf8Size_pos
  rw [positionIn_cons_of_lt hrest (by rw [h, Utf8.size_append, Utf8.size_cons]; omega), h,
    Utf8.charsWithin_size_append]

/-- A cut behind the first line. -/
theorem positionIn_behind_first (before : List Char) (first : Line) {rest : List Line}
    (hrest : rest ≠ []) :
    positionIn 0 (Utf8.size (first.text ++ before)) (first :: rest) =
      ⟨(positionIn 0 (Utf8.size before) rest).line + 1,
        (positionIn 0 (Utf8.size before) rest).column⟩ := by
  rw [Utf8.size_append, positionIn_cons_of_le hrest (Nat.le_add_right _ _),
    Nat.add_sub_cancel_left]

/-! ### Cuts of a text and its lines -/

section Cut

variable {text : List Char} {lines : List Line}

/-- A cut in the first line that is not inside its ending is in front of it. -/
theorem prefix_body_of_not_insideEnding {body ending rest before more : List Char} {c : Char}
    (ends : Line.IsEnding ending rest) (hcut : body ++ ending = before ++ c :: more)
    (outside : ¬ InsideEnding before (c :: more ++ rest)) : before <+: body := by
  rcases List.append_eq_append_iff.mp hcut with ⟨front, rfl, hending⟩ | ⟨tail, hbody, -⟩
  · -- the cut is in the ending, so it is at its start
    cases ends with
    | returnFeed =>
      rcases front with _ | ⟨c₀, front⟩
      · simp
      · obtain ⟨rfl, hfront⟩ : c₀ = '\r' ∧ front ++ c :: more = ['\n'] := by
          simpa [eq_comm] using hending
        rcases front with _ | ⟨c₁, front⟩
        · obtain ⟨rfl, -⟩ : c = '\n' ∧ more = [] := by simpa using hfront
          exact absurd ⟨by simp, by simp⟩ outside
        · simp at hfront
    | single =>
      rcases front with _ | ⟨c₀, front⟩
      · simp
      · simp at hending
  · exact ⟨tail, hbody.symm⟩

/-- **From a cut to its position and back**, unless the cut is inside an ending. -/
theorem offsetIn_positionIn (h : Line.Cut text lines) {before after : List Char}
    (htext : text = before ++ after) (outside : ¬ InsideEnding before after) :
    offsetIn lines (positionIn 0 (Utf8.size before) lines) = Utf8.size before := by
  induction h generalizing before with
  | @last body clean =>
    -- in the last line nothing is clamped: the column is in front of its end
    have last : Line.text ⟨body, []⟩ = before ++ after := by rwa [Line.text, List.append_nil]
    rw [positionIn_singleton last, offsetIn_singleton, htext, List.take_left]
  | @next body ending rest lines clean ends more ih =>
    rw [← List.append_assoc] at htext
    rcases cut_cases htext.symm with ⟨c, tail, hfirst, rfl⟩ | ⟨before', rfl, hrest⟩
    · obtain ⟨back, rfl⟩ := prefix_body_of_not_insideEnding ends hfirst outside
      have inFirst : Line.text ⟨before ++ back, ending⟩ = before ++ c :: tail := hfirst
      rw [positionIn_in_first more.ne_nil inFirst, offsetIn_cons_zero, List.take_left]
    · have outside' : ¬ InsideEnding before' after := by
        rintro ⟨hreturn, hfeed⟩
        refine outside ⟨?_, hfeed⟩
        rw [List.getLast?_append, hreturn]
        rfl
      have behind := positionIn_behind_first before' ⟨body, ending⟩ more.ne_nil
      rw [Line.text] at behind
      rw [behind, offsetIn_cons_succ _ more.ne_nil, ih hrest outside', Line.text,
        ← Utf8.size_append]

/-- **Positions keep the order of cuts**, strictly. -/
theorem positionIn_lt (h : Line.Cut text lines) {before mid after : List Char}
    (htext : text = before ++ (mid ++ after)) (hmid : mid ≠ []) :
    positionIn 0 (Utf8.size before) lines < positionIn 0 (Utf8.size (before ++ mid)) lines := by
  have longer : before.length < (before ++ mid).length := by
    have := List.length_pos_iff.mpr hmid
    rw [List.length_append]
    omega
  induction h generalizing before with
  | @last body clean =>
    have last : Line.text ⟨body, []⟩ = before ++ (mid ++ after) := by
      rwa [Line.text, List.append_nil]
    have last' : Line.text ⟨body, []⟩ = (before ++ mid) ++ after := by
      rwa [List.append_assoc]
    rw [positionIn_singleton last, positionIn_singleton last', Position.lt_iff]
    exact Or.inr ⟨rfl, longer⟩
  | @next body ending rest lines clean ends more ih =>
    have htext' : (before ++ mid) ++ after = (body ++ ending) ++ rest := by
      simpa using htext.symm
    rw [← List.append_assoc] at htext
    -- both cuts in the first line, or a line between them, or both behind the first line
    rcases cut_cases htext.symm with ⟨c, tail, hfirst, -⟩ | ⟨before', rfl, hrest⟩
    · have inFirst : Line.text ⟨body, ending⟩ = before ++ c :: tail := hfirst
      rw [positionIn_in_first more.ne_nil inFirst, Position.lt_iff]
      rcases cut_cases htext' with ⟨c', tail', hfirst', -⟩ | ⟨behind, hbehind, -⟩
      · have inFirst' : Line.text ⟨body, ending⟩ = (before ++ mid) ++ c' :: tail' := hfirst'
        rw [positionIn_in_first more.ne_nil inFirst']
        exact Or.inr ⟨rfl, longer⟩
      · have later := positionIn_behind_first behind ⟨body, ending⟩ more.ne_nil
        rw [Line.text] at later
        rw [hbehind, later]
        exact Or.inl (Nat.succ_pos _)
    · have earlier := positionIn_behind_first before' ⟨body, ending⟩ more.ne_nil
      have later := positionIn_behind_first (before' ++ mid) ⟨body, ending⟩ more.ne_nil
      rw [Line.text] at earlier later
      rw [earlier, List.append_assoc, later, Position.lt_iff]
      have step := ih hrest (by simpa using longer)
      rw [Position.lt_iff] at step
      dsimp only
      omega

/-- The offset of a position is a cut, and none inside an ending. -/
theorem exists_offsetIn (h : Line.Cut text lines) (position : Position) :
    ∃ before after, text = before ++ after ∧ offsetIn lines position = Utf8.size before ∧
      ¬ InsideEnding before after := by
  -- a line holds no carriage return in front of its ending
  have inLine : ∀ {body : List Char} (column : Nat) (tail : List Char),
      (∀ c ∈ body, Line.isBreak c = false) →
        ¬ InsideEnding (body.take column) tail := by
    rintro body column tail clean ⟨hreturn, -⟩
    have := clean '\r' (List.mem_of_mem_take (List.mem_of_getLast? hreturn))
    exact absurd this (by decide)
  obtain ⟨line, column⟩ := position
  induction h generalizing line with
  | @last body clean =>
    refine ⟨body.take column, body.drop column, (List.take_append_drop _ _).symm, ?_,
      inLine column _ clean⟩
    rw [offsetIn_singleton]
  | @next body ending rest lines clean ends more ih =>
    cases line with
    | zero =>
      refine ⟨body.take column, body.drop column ++ (ending ++ rest), ?_, ?_,
        inLine column _ clean⟩
      · rw [← List.append_assoc (body.take column), List.take_append_drop]
      · rw [offsetIn_cons_zero]
    | succ line =>
      obtain ⟨before, after, rfl, hoffset, outside⟩ := ih line
      refine ⟨body ++ ending ++ before, after, by simp, ?_, ?_⟩
      · rw [offsetIn_cons_succ _ more.ne_nil, hoffset, Line.text, ← Utf8.size_append]
      · rintro ⟨hreturn, hfeed⟩
        -- at the start of a line the carriage return would be the ending of the line before
        rw [List.getLast?_append] at hreturn
        cases hlast : before.getLast? with
        | some c =>
          rw [hlast] at hreturn
          exact outside ⟨hlast.trans hreturn, hfeed⟩
        | none =>
          obtain rfl := List.getLast?_eq_none_iff.mp hlast
          rw [List.getLast?_nil, Option.none_or, List.getLast?_append] at hreturn
          cases ends with
          | returnFeed => simp at hreturn
          | single breaks alone =>
            obtain rfl : _ = '\r' := by simpa using hreturn
            exact alone rfl hfeed

/-- Lines and columns together are no more than the characters. -/
theorem positionIn_le (h : Line.Cut text lines) (offset : Nat) :
    (positionIn 0 offset lines).line + (positionIn 0 offset lines).column ≤ text.length := by
  induction h generalizing offset with
  | @last body clean =>
    have within := Utf8.charsWithin_le_length offset (Line.text ⟨body, []⟩)
    rw [Line.text, List.append_nil] at within
    rw [positionIn, Line.text, List.append_nil]
    dsimp only at within ⊢
    omega
  | @next body ending rest lines clean ends more ih =>
    obtain ⟨second, later, rfl⟩ := List.exists_cons_of_ne_nil more.ne_nil
    have broken := List.length_pos_iff.mpr ends.ne_nil
    rw [positionIn, List.length_append, List.length_append]
    split
    · have within := Utf8.charsWithin_le_length offset (Line.text ⟨body, ending⟩)
      rw [Line.text, List.length_append] at within
      rw [Line.text]
      dsimp only at within ⊢
      omega
    · have behind := ih (offset - Line.size ⟨body, ending⟩)
      rw [positionIn_eq]
      dsimp only
      omega

/-- Where a line stands in the text, and the offsets of its columns. -/
theorem exists_line_of_cut (h : Line.Cut text lines) {i : Nat} {line : Line}
    (hi : lines[i]? = some line) :
    ∃ before after, text = before ++ (line.body ++ after) ∧
      ∀ column, offsetIn lines ⟨i, column⟩ = Utf8.size (before ++ line.body.take column) := by
  induction h generalizing i with
  | @last body clean =>
    obtain ⟨rfl, rfl⟩ : i = 0 ∧ ⟨body, []⟩ = line := by
      cases i with
      | zero => simpa using hi
      | succ i => simp at hi
    exact ⟨[], [], by simp, fun column => by rw [offsetIn_cons_zero, List.nil_append]⟩
  | @next body ending rest lines clean ends more ih =>
    cases i with
    | zero =>
      obtain rfl : ⟨body, ending⟩ = line := by simpa using hi
      exact ⟨[], ending ++ rest, by simp, fun column => by
        rw [offsetIn_cons_zero, List.nil_append]⟩
    | succ i =>
      obtain ⟨before, after, htext, hoffset⟩ := ih (i := i) (by simpa using hi)
      refine ⟨body ++ ending ++ before, after, by simp [htext], fun column => ?_⟩
      rw [offsetIn_cons_succ _ more.ne_nil, hoffset, Line.text, ← Utf8.size_append,
        List.append_assoc (body ++ ending)]

end Cut

/-! ### Documents -/

section Text

variable (document : Document)

theorem cut_lines : Line.Cut document.text.toList document.lines := by
  rw [document.lines_eq]
  exact Line.cut_split _

variable {document}

theorem offsetAt_positionAt {before after : List Char}
    (htext : document.text.toList = before ++ after) (outside : ¬ InsideEnding before after) :
    document.offsetAt (document.positionAt (Utf8.size before)) = Utf8.size before :=
  offsetIn_positionIn document.cut_lines htext outside

theorem positionAt_lt {before before' : List Char} (h : before <+: document.text.toList)
    (h' : before' <+: document.text.toList) (hlt : Utf8.size before < Utf8.size before') :
    document.positionAt (Utf8.size before) < document.positionAt (Utf8.size before') := by
  obtain ⟨mid, rfl⟩ := Utf8.prefix_of_size_le h h' (Nat.le_of_lt hlt)
  obtain ⟨after, htext⟩ := h'
  have hmid : mid ≠ [] := by
    rintro rfl
    simp at hlt
  rw [List.append_assoc] at htext
  exact positionIn_lt document.cut_lines htext.symm hmid

/-- **No position lies further out than the text is long.** -/
theorem positionAt_le (document : Document) (offset : Nat) :
    (document.positionAt offset).line + (document.positionAt offset).column ≤ document.size :=
  Nat.le_trans (positionIn_le document.cut_lines offset) (Utf8.length_le_size _)

variable (document)

theorem exists_offsetAt (position : Position) :
    ∃ before after, document.text.toList = before ++ after ∧
      document.offsetAt position = Utf8.size before ∧ ¬ InsideEnding before after :=
  exists_offsetIn document.cut_lines position

variable {document}

theorem exists_line {i : Nat} {line : Line} (hi : document.lines[i]? = some line) :
    ∃ before after, document.text.toList = before ++ (line.body ++ after) ∧
      ∀ column, document.offsetAt ⟨i, column⟩ =
        Utf8.size (before ++ line.body.take column) :=
  exists_line_of_cut document.cut_lines hi

/-! ### Slices -/

/-- A slice between two cuts is what stands between them. -/
theorem slice_of_cut {before mid after : List Char}
    (htext : document.text.toList = before ++ (mid ++ after)) {range : Range}
    (hstart : document.offsetAt range.start = Utf8.size before)
    (hstop : max (document.offsetAt range.start) (document.offsetAt range.stop) =
      Utf8.size (before ++ mid)) :
    document.slice range = String.ofList mid := by
  simp only [slice, hstop]
  rw [hstart, htext, Utf8.dropWithin_size_append, Utf8.size_append, Nat.add_sub_cancel_left,
    Utf8.takeWithin_size_append]

variable (document)

/-- **Every slice is cut out of the text**: its ends are cuts, the second moved up
to the first if it is in front of it. -/
theorem exists_slice (range : Range) :
    ∃ before mid after, document.text.toList = before ++ (mid ++ after) ∧
      document.offsetAt range.start = Utf8.size before ∧
      max (document.offsetAt range.start) (document.offsetAt range.stop) =
        Utf8.size (before ++ mid) ∧
      document.slice range = String.ofList mid := by
  obtain ⟨before, after, htext, hstart, -⟩ := document.exists_offsetAt range.start
  obtain ⟨before', after', htext', hstop, -⟩ := document.exists_offsetAt range.stop
  rcases Nat.le_total (Utf8.size before) (Utf8.size before') with hle | hle
  · obtain ⟨mid, rfl⟩ := Utf8.prefix_of_size_le ⟨after, htext.symm⟩ ⟨after', htext'.symm⟩ hle
    rw [List.append_assoc] at htext'
    have hmax : max (document.offsetAt range.start) (document.offsetAt range.stop) =
        Utf8.size (before ++ mid) := by
      rw [hstart, hstop, Nat.max_eq_right hle]
    exact ⟨before, mid, after', htext', hstart, hmax, slice_of_cut htext' hstart hmax⟩
  · have hmax : max (document.offsetAt range.start) (document.offsetAt range.stop) =
        Utf8.size (before ++ []) := by
      rw [hstart, hstop, Nat.max_eq_left hle, List.append_nil]
    exact ⟨before, [], after, htext, hstart, hmax, slice_of_cut htext hstart hmax⟩

/-- A slice is a piece of the text. -/
theorem slice_infix (range : Range) :
    (document.slice range).toList <:+: document.text.toList := by
  obtain ⟨before, mid, after, htext, -, -, hslice⟩ := document.exists_slice range
  rw [hslice, String.toList_ofList, htext]
  exact ⟨before, after, List.append_assoc _ _ _⟩

/-- The bytes of a slice are those between the offsets of its ends. -/
theorem utf8Bytes_slice (range : Range) :
    utf8Bytes (document.slice range) =
      ((utf8Bytes document.text).take
        (max (document.offsetAt range.start) (document.offsetAt range.stop))).drop
        (document.offsetAt range.start) := by
  obtain ⟨before, mid, after, htext, hstart, hmax, hslice⟩ := document.exists_slice range
  rw [hmax, hstart, hslice, utf8Bytes, utf8Bytes, htext, Utf8.slice_encode, String.toList_ofList]

variable {document}

/-- A slice within a line, by its columns. -/
theorem slice_columns {i : Nat} {line : Line} (hi : document.lines[i]? = some line)
    {start stop : Nat} (hle : start ≤ stop) :
    document.slice ⟨⟨i, start⟩, ⟨i, stop⟩⟩ =
      String.ofList ((line.body.take stop).drop start) := by
  obtain ⟨before, after, htext, hoffset⟩ := exists_line hi
  have halves : line.body.take start ++ (line.body.take stop).drop start = line.body.take stop := by
    have whole := List.take_append_drop start (line.body.take stop)
    rwa [List.take_take, Nat.min_eq_left hle] at whole
  have cut : document.text.toList = before ++ line.body.take start ++
      ((line.body.take stop).drop start ++ (line.body.drop stop ++ after)) := by
    calc document.text.toList
        = before ++ (line.body.take stop ++ line.body.drop stop ++ after) := by
          rw [htext, List.take_append_drop]
      _ = before ++ (line.body.take start ++ (line.body.take stop).drop start ++
            line.body.drop stop ++ after) := by rw [halves]
      _ = _ := by simp only [List.append_assoc]
  have hstop : max (document.offsetAt ⟨i, start⟩) (document.offsetAt ⟨i, stop⟩) =
      Utf8.size (before ++ line.body.take start ++ (line.body.take stop).drop start) := by
    have ordered := Utf8.size_le_of_prefix (List.take_prefix_take_left hle (l := line.body))
    rw [hoffset, hoffset, List.append_assoc before, halves, Utf8.size_append, Utf8.size_append]
    omega
  exact slice_of_cut cut (hoffset start) hstop

/-- The slice of a line is the line without its ending. -/
theorem slice_line {i : Nat} {line : Line} (hi : document.lines[i]? = some line) :
    document.slice ⟨⟨i, 0⟩, ⟨i, line.width⟩⟩ = String.ofList line.body := by
  rw [slice_columns hi (Nat.zero_le _), List.drop_zero, Line.width, List.take_length]

end Text

end Document

end LiveCoding
