import LiveCoding.Document.Line
import Mathlib.Data.List.Basic
import Mathlib.Tactic.Common

/-!
# How a text is cut into lines

`Line.split` walks over a text with an accumulator.  What it comes to is said here
of the text alone: `Line.Cut text lines` relates a text to its lines, one rule for
the last line and one for every other.  Proofs about lines go by induction over it
and never look at the walk.

## Main Definitions

* `Line.breaks`: the characters that end a line.
* `Line.IsEnding`: what ends a line in front of the rest of a text.
* `Line.Cut`: a text and its lines.

## Main Statements

* `Line.cut_split`: `Line.split` cuts every text in this way.

## Design Notes

A carriage return is an ending of its own only if no line feed follows.  That is
why an ending is spoken of together with what follows it.
-/

namespace LiveCoding

namespace Line

/-- The characters that end a line. -/
def breaks : List Char :=
  ['\n', '\r', '\x0b', '\x0c', '\u0085', '\u2028', '\u2029']

theorem isBreak_iff_mem {c : Char} : isBreak c = true ↔ c ∈ breaks := by
  simp [isBreak, breaks, or_assoc]

/-- What ends a line in front of the rest of a text. -/
inductive IsEnding : List Char → List Char → Prop
  | returnFeed (rest : List Char) : IsEnding ['\r', '\n'] rest
  | single {c : Char} {rest : List Char} (breaks : isBreak c = true)
      (alone : c = '\r' → rest.head? ≠ some '\n') : IsEnding [c] rest

/-- A text and its lines: the last has no ending, every other has one, and no line
holds a break in front of its ending. -/
inductive Cut : List Char → List Line → Prop
  | last {body : List Char} (clean : ∀ c ∈ body, isBreak c = false) : Cut body [⟨body, []⟩]
  | next {body ending rest : List Char} {lines : List Line}
      (clean : ∀ c ∈ body, isBreak c = false) (ends : IsEnding ending rest)
      (more : Cut rest lines) : Cut (body ++ (ending ++ rest)) (⟨body, ending⟩ :: lines)

theorem IsEnding.ne_nil {ending rest : List Char} (h : IsEnding ending rest) : ending ≠ [] := by
  cases h <;> simp

theorem Cut.ne_nil {text : List Char} {lines : List Line} (h : Cut text lines) : lines ≠ [] := by
  cases h <;> simp

/-- The lines of a text, one after the other, are the text. -/
theorem Cut.flatten {text : List Char} {lines : List Line} (h : Cut text lines) :
    (lines.map Line.text).flatten = text := by
  induction h with
  | last => simp [Line.text]
  | next _ _ _ ih => simp [Line.text, ih]

/-- An ending holds a break. -/
theorem IsEnding.exists_isBreak {ending rest : List Char} (h : IsEnding ending rest) :
    ∃ c ∈ ending, isBreak c = true := by
  cases h with
  | returnFeed => exact ⟨'\r', by simp, by decide⟩
  | single breaks => exact ⟨_, List.mem_singleton_self _, breaks⟩

/-- A text without breaks is one line. -/
theorem Cut.eq_singleton {text : List Char} {lines : List Line} (h : Cut text lines)
    (clean : ∀ c ∈ text, isBreak c = false) : lines = [⟨text, []⟩] := by
  cases h with
  | last => rfl
  | next _ ends =>
    obtain ⟨c, hc, breaks⟩ := ends.exists_isBreak
    have plain := clean c (List.mem_append_right _ (List.mem_append_left _ hc))
    rw [breaks] at plain
    contradiction

/-! ### The walk -/

/-- From inside a line, the walk goes on to cut what is left. -/
theorem exists_splitFrom (body : List Char) (found : List Line) (text : List Char)
    (clean : ∀ c ∈ body, isBreak c = false) :
    ∃ lines, splitFrom body found text = found.reverse ++ lines ∧
      Cut (body.reverse ++ text) lines := by
  have cleanReverse : ∀ {body : List Char}, (∀ c ∈ body, isBreak c = false) →
      ∀ c ∈ body.reverse, isBreak c = false := by
    intro body clean c hc
    exact clean c (List.mem_reverse.mp hc)
  fun_induction splitFrom body found text with
  | case1 body found =>
    refine ⟨[⟨body.reverse, []⟩], by simp, ?_⟩
    rw [List.append_nil]
    exact .last (cleanReverse clean)
  | case2 body found rest ih =>
    obtain ⟨lines, hlines, hcut⟩ := ih (by simp)
    refine ⟨⟨body.reverse, ['\r', '\n']⟩ :: lines, by simp [hlines], ?_⟩
    exact .next (cleanReverse clean) (.returnFeed rest) hcut
  | case3 body found c rest notBoth breaks ih =>
    obtain ⟨lines, hlines, hcut⟩ := ih (by simp)
    refine ⟨⟨body.reverse, [c]⟩ :: lines, by simp [hlines], ?_⟩
    refine .next (cleanReverse clean) (.single breaks ?_) hcut
    rintro rfl feeds
    obtain ⟨rest', rfl⟩ : ∃ rest', rest = '\n' :: rest' := by
      cases rest with
      | nil => simp at feeds
      | cons c' rest' =>
        obtain rfl : c' = '\n' := by simpa using feeds
        exact ⟨rest', rfl⟩
    exact notBoth rest' rfl rfl
  | case4 body found c rest notBoth breaks ih =>
    obtain ⟨lines, hlines, hcut⟩ := ih (by
      intro c' hc'
      rcases List.mem_cons.mp hc' with rfl | hc'
      · simpa using breaks
      · exact clean c' hc')
    exact ⟨lines, hlines, by simpa using hcut⟩

/-- **`Line.split` cuts every text into its lines.** -/
theorem cut_split (text : List Char) : Cut text (split text) := by
  obtain ⟨lines, hlines, hcut⟩ := exists_splitFrom [] [] text (by simp)
  rw [split, hlines]
  exact hcut

end Line

end LiveCoding
