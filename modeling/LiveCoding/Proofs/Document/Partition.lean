import LiveCoding.Proofs.Document.Geometry
import Mathlib.Data.List.OfFn

/-!
# Lines are a partition of the text

A line is told without its ending, so a text that is taken line by line could come back
with something missing.  It does not: every line has an ending that belongs between it
and the next one, and lines and endings in turn are the text.

Where a line ends is known in two ways.  The text is cut at its breaks from the front
(`Line.split`), and the content of one whole line is what is left in front of the breaks
at its back (`Line.contentLength`).  Both mean the same characters, because a line holds
no break in front of its ending and no ending is cut in two.

## Main Definitions

* `Line.endings`: what ends a line that is not the last.
* `Document.IsPartition`: endings with which the lines of a document are its text.

## Main Statements

* `Line.Cut.isEnding`: the ending of a line, in front of all that follows.
* `Line.Cut.contentLength_text`: the content of a line, from the front and from the back.
* `Document.lines_partition`: lines and endings in turn are the text.
-/

namespace LiveCoding

namespace Line

/-- What ends a line that is not the last. -/
def endings : List String :=
  ["\n", "\r", "\r\n", "\x0b", "\x0c", "\u0085", "\u2028", "\u2029"]

theorem IsEnding.mem_endings {ending rest : List Char} (h : IsEnding ending rest) :
    String.ofList ending ∈ endings := by
  have known : breaks.all (fun c => String.ofList [c] ∈ endings) = true := by decide
  cases h with
  | returnFeed => decide
  | single breaks =>
    exact of_decide_eq_true (List.all_eq_true.mp known _ (isBreak_iff_mem.mp breaks))

/-! ### Content, read off the back -/

theorem contentLength_returnFeed (body : List Char) :
    contentLength (body ++ ['\r', '\n']) = body.length := by
  simp [contentLength]

theorem contentLength_concat {body : List Char} (h : body.getLast? ≠ some '\r') (c : Char) :
    contentLength (body ++ [c]) = if isBreak c then body.length else body.length + 1 := by
  rw [contentLength, List.reverse_append, List.reverse_singleton, List.singleton_append]
  split
  next heq => contradiction
  next rest heq =>
    obtain ⟨-, hrest⟩ := List.cons.inj heq
    rw [← List.head?_reverse, hrest] at h
    exact absurd rfl h
  next c' rest _ heq =>
    obtain ⟨rfl, rfl⟩ := List.cons.inj heq
    rw [List.length_reverse]

/-- A carriage return is a break, so content does not end with one. -/
theorem getLast?_of_clean {body : List Char} (clean : ∀ c ∈ body, isBreak c = false) :
    body.getLast? ≠ some '\r' := by
  intro hreturn
  exact absurd (clean '\r' (List.mem_of_getLast? hreturn)) (by decide)

theorem contentLength_of_clean {body : List Char} (clean : ∀ c ∈ body, isBreak c = false) :
    contentLength body = body.length := by
  rcases List.eq_nil_or_concat body with rfl | ⟨front, c, rfl⟩
  · rfl
  · rw [List.concat_eq_append] at clean ⊢
    have cleanFront : ∀ c ∈ front, isBreak c = false := by
      intro c hc
      exact clean c (List.mem_append_left _ hc)
    rw [contentLength_concat (getLast?_of_clean cleanFront), clean c (by simp)]
    simp

theorem IsEnding.contentLength_append {body ending rest : List Char}
    (clean : ∀ c ∈ body, isBreak c = false) (ends : IsEnding ending rest) :
    contentLength (body ++ ending) = body.length := by
  cases ends with
  | returnFeed => exact contentLength_returnFeed body
  | single breaks => rw [contentLength_concat (getLast?_of_clean clean), if_pos breaks]

/-! ### The lines of a cut text -/

section Cut

variable {text : List Char} {lines : List Line}

theorem Cut.clean (h : Cut text lines) {line : Line} (hline : line ∈ lines) :
    ∀ c ∈ line.body, isBreak c = false := by
  induction h with
  | last clean =>
    obtain rfl := List.mem_singleton.mp hline
    exact clean
  | next clean _ _ ih =>
    rcases List.mem_cons.mp hline with rfl | hline
    · exact clean
    · exact ih hline

/-- **The ending of a line**, in front of all that follows. -/
theorem Cut.isEnding (h : Cut text lines) {i : Nat} {line : Line} (hi : lines[i]? = some line)
    (more : i + 1 < lines.length) :
    IsEnding line.ending ((lines.drop (i + 1)).map Line.text).flatten := by
  induction h generalizing i with
  | last => simp at more
  | next _ ends later ih =>
    cases i with
    | zero =>
      obtain rfl := Option.some.inj hi
      rw [List.drop_succ_cons, List.drop_zero, later.flatten]
      exact ends
    | succ i => exact ih (by simpa using hi) (by simpa using more)

/-- The last line has no ending. -/
theorem Cut.ending_of_last (h : Cut text lines) {i : Nat} {line : Line}
    (hi : lines[i]? = some line) (last : i + 1 = lines.length) : line.ending = [] := by
  induction h generalizing i with
  | last =>
    obtain rfl : i = 0 := by simpa using last
    obtain rfl := Option.some.inj hi
    rfl
  | next _ _ later ih =>
    have some_line := List.length_pos_iff.mpr later.ne_nil
    rw [List.length_cons] at last
    obtain ⟨i, rfl⟩ : ∃ k, i = k + 1 := ⟨i - 1, by omega⟩
    exact ih (by simpa using hi) (by omega)

/-- **The content of a line, read off its back**, is what the cut from the front put in
front of its ending. -/
theorem Cut.contentLength_text (h : Cut text lines) {line : Line} (hline : line ∈ lines) :
    contentLength line.text = line.width := by
  have clean := h.clean hline
  obtain ⟨i, hi⟩ := List.mem_iff_getElem?.mp hline
  have inside := (List.getElem?_eq_some_iff.mp hi).1
  rcases Nat.lt_or_ge (i + 1) lines.length with more | last
  · exact (h.isEnding hi more).contentLength_append clean
  · rw [Line.text, h.ending_of_last hi (by omega), List.append_nil]
    exact contentLength_of_clean clean

/-- No ending is cut in two: behind a line that ends with a carriage return, the next one
does not start with a line feed. -/
theorem Cut.head?_text_ne (h : Cut text lines) {i : Nat} {line next : Line}
    (hi : lines[i]? = some line) (hnext : lines[i + 1]? = some next)
    (hreturn : line.text.getLast? = some '\r') : next.text.head? ≠ some '\n' := by
  obtain ⟨more, rfl⟩ := List.getElem?_eq_some_iff.mp hnext
  have ends := h.isEnding hi more
  rw [List.drop_eq_getElem_cons more, List.map_cons, List.flatten_cons] at ends
  intro hfeed
  obtain ⟨body, ending⟩ := line
  cases ends with
  | returnFeed => simp [Line.text] at hreturn
  | single breaks alone =>
    obtain rfl : _ = '\r' := by simpa [Line.text] using hreturn
    exact alone rfl (by rw [List.head?_append, hfeed, Option.some_or])

end Cut

end Line

namespace Document

variable (document : Document)

/-! ### Documents -/

/-- A line with an ending behind it. -/
def withEnding (ending : Fin document.lineCount → String) (i : Fin document.lineCount) : String :=
  (document.lineAt i).getD "" ++ ending i

/-- Endings with which the lines of a document are its text. -/
structure IsPartition (ending : Fin document.lineCount → String) : Prop where
  /-- Lines and endings in turn are the text. -/
  joined : String.join (List.ofFn (document.withEnding ending)) = document.text
  /-- Every line that is not the last has one of the known endings. -/
  known : ∀ i, i.val + 1 < document.lineCount → ending i ∈ Line.endings
  /-- The last line has no ending. -/
  last : ∀ i, i.val + 1 = document.lineCount → ending i = ""
  /-- A carriage return and the line feed that follows it stay in one line. -/
  whole : ∀ i j : Fin document.lineCount, j.val = i.val + 1 →
    ¬ ((document.withEnding ending i).toList.getLast? = some '\r' ∧
      (document.withEnding ending j).toList.head? = some '\n')
  /-- The content of a line is the same from the front and from the back. -/
  content : ∀ i : Fin document.lineCount, document.lineAt i = some (String.ofList
    ((document.withEnding ending i).toList.take
      (Line.contentLength (document.withEnding ending i).toList)))

/-- The endings that the text was cut with. -/
def ending (i : Fin document.lineCount) : String :=
  String.ofList (document.lines.get i).ending

theorem getElem?_lines (i : Fin document.lineCount) :
    document.lines[i.val]? = some (document.lines.get i) :=
  List.getElem?_eq_getElem i.isLt

theorem lineAt_get (i : Fin document.lineCount) :
    document.lineAt i = some (String.ofList (document.lines.get i).body) := by
  rw [lineAt, getElem?_lines, Option.map_some]

theorem withEnding_ending (i : Fin document.lineCount) :
    document.withEnding document.ending i = String.ofList (document.lines.get i).text := by
  rw [withEnding, lineAt_get, Option.getD_some, ending, Line.text, String.ofList_append]

theorem isPartition_ending : document.IsPartition document.ending where
  joined := by
    have texts : List.ofFn (document.withEnding document.ending) =
        document.lines.map fun line => String.ofList line.text := by
      rw [funext document.withEnding_ending]
      exact List.ofFn_getElem_eq_map document.lines fun line => String.ofList line.text
    apply String.toList_injective
    rw [texts, String.toList_join, List.flatMap_map, ← document.cut_lines.flatten]
    simp [List.flatMap_def]
  known i more := (document.cut_lines.isEnding (document.getElem?_lines i) more).mem_endings
  last i last :=
    congrArg String.ofList (document.cut_lines.ending_of_last (document.getElem?_lines i) last)
  whole i j hnext := by
    rintro ⟨hreturn, hfeed⟩
    rw [withEnding_ending, String.toList_ofList] at hreturn hfeed
    have next := document.getElem?_lines j
    rw [hnext] at next
    exact document.cut_lines.head?_text_ne (document.getElem?_lines i) next hreturn hfeed
  content i := by
    have back := document.cut_lines.contentLength_text
      (List.mem_of_getElem? (document.getElem?_lines i))
    rw [withEnding_ending, String.toList_ofList, back, Line.text, Line.width, List.take_left]
    exact document.lineAt_get i

/-- **Lines are a partition of the text.**  Every line but the last has an ending, and lines
and endings in turn are the text; no line holds a break, and no ending is cut in two.  A
line is what stands in its range, its columns are its characters, and there are as many
lines as there are said to be. -/
theorem lines_partition :
    (∃ ending, document.IsPartition ending) ∧
      (∀ i line, document.lineAt i = some line →
        (∀ c ∈ Line.breaks, c ∉ line.toList) ∧
        document.lineRange i = some ⟨⟨i, 0⟩, ⟨i, line.length⟩⟩ ∧
        document.slice ⟨⟨i, 0⟩, ⟨i, line.length⟩⟩ = line) ∧
      ∀ i, (document.lineAt i = none ↔ document.lineCount ≤ i) ∧
        (document.lineRange i = none ↔ document.lineCount ≤ i) := by
  refine ⟨⟨_, document.isPartition_ending⟩, ?_, fun i => ?_⟩
  · intro i line hline
    obtain ⟨found, hfound, rfl⟩ := Option.map_eq_some_iff.mp hline
    have width : (String.ofList found.body).length = found.width := String.length_ofList
    refine ⟨?_, ?_, ?_⟩
    · intro c broken hc
      rw [String.toList_ofList] at hc
      have content := document.cut_lines.clean (List.mem_of_getElem? hfound) c hc
      rw [Line.isBreak_iff_mem.mpr broken] at content
      contradiction
    · rw [lineRange, hfound, Option.map_some, width]
    · rw [width]
      exact slice_line hfound
  · rw [lineAt, lineRange, Option.map_eq_none_iff, Option.map_eq_none_iff,
      List.getElem?_eq_none_iff, lineCount]
    exact ⟨Iff.rfl, Iff.rfl⟩

/-- Of two carriage returns in front of a line feed only the second belongs to it, and one
behind a line feed is an ending of its own. -/
example :
    (List.range 6).map (ofText "a\r\r\né\n\r").lineAt =
      [some "a", some "", some "é", some "", some "", none] := by
  decide

end Document

end LiveCoding
