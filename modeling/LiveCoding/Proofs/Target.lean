import LiveCoding.Proofs.Document.Block
import LiveCoding.Target

/-!
# The target of a selection

`Target.resolve?` goes from a position to a byte offset, from there to a span of
bytes, to the positions of its ends, to their byte offsets and at last to a piece of
the text.  This module states what comes out at the far end in terms of the text
alone, for every range, wherever its ends are.

## Main Statements

* `Target.resolve?_of_choose?`: the target in a range that has been chosen.
* `Target.resolve?_block`: the target of a cursor inside a pair of brackets.
* `Target.resolve?_line`, `Target.resolve?_past`: the target of any other cursor.
* `Target.resolve?_eq_block_iff`: a bare cursor gives a block exactly where there is one.
* `Target.resolve?_selected_block`: the range of a block, selected, gives the same code.

## Design Notes

A block is never refused as blank: what is sent starts with its parenthesis.
-/

namespace LiveCoding

namespace Target

section Source

variable {σ : Type} [TextSource σ] {source : σ} {selection : Range}

theorem choose?_selection (h : selection.start ≠ selection.stop) :
    choose? source selection = some (selection, .selection) := by
  simp [choose?, Range.isEmpty, h]

theorem choose?_block {block : Range} (h : selection.start = selection.stop)
    (hblock : TextSource.enclosingBlock source selection.start = some block) :
    choose? source selection = some (block, .block) := by
  simp [choose?, Range.isEmpty, h, h ▸ hblock]

theorem choose?_line (h : selection.start = selection.stop)
    (hblock : TextSource.enclosingBlock source selection.start = none) :
    choose? source selection =
      (TextSource.lineRange source selection.start.line).map (·, .line) := by
  simp [choose?, Range.isEmpty, h, h ▸ hblock]

/-- The target in a range that has been chosen. -/
theorem resolve?_of_choose? {range : Range} {kind : Kind} {code : String}
    (h : choose? source selection = some (range, kind))
    (hcode : TextSource.slice source range = code) :
    resolve? source selection =
      if isBlankText code then none else some ⟨code, range, kind⟩ := by
  subst hcode
  rw [resolve?, h]
  rfl

/-- Whatever has been chosen, the code is what stands in the range. -/
theorem code_of_resolve? {target : Target} (h : target ∈ resolve? source selection) :
    target.code = TextSource.slice source target.range := by
  rw [resolve?] at h
  obtain ⟨⟨range, kind⟩, -, h⟩ := Option.bind_eq_some_iff.mp h
  dsimp only at h
  split at h
  · contradiction
  · obtain rfl := Option.some.inj h
    rfl

/-- What a target is, and where, was chosen. -/
theorem choose?_of_resolve? {target : Target} (h : target ∈ resolve? source selection) :
    choose? source selection = some (target.range, target.kind) := by
  rw [resolve?] at h
  obtain ⟨⟨range, kind⟩, chosen, h⟩ := Option.bind_eq_some_iff.mp h
  dsimp only at h
  split at h
  · contradiction
  · obtain rfl := Option.some.inj h
    exact chosen

theorem code_of_ofFile? {target : Target} (h : target ∈ ofFile? source) :
    target.code = TextSource.text source := by
  rw [ofFile?] at h
  dsimp only at h
  split at h
  · contradiction
  · obtain rfl := Option.some.inj h
    rfl

end Source

section Document

variable {document : Document} {range : Range}

/-- Code that starts with a parenthesis is not blank. -/
theorem not_isBlankText_of_paren (code : List Char) :
    isBlankText (String.ofList ('(' :: code)) = false := by
  rw [isBlankText, String.toList_ofList, List.all_cons, show isBlank '(' = false by decide,
    Bool.false_and]

/-- A bare cursor inside a pair gives the innermost one. -/
theorem resolve?_block {o c : Nat} (h : range.start = range.stop)
    (pair : Block.IsInnermost (utf8Bytes document.text) (document.offsetAt range.start) o c) :
    ∃ mid, resolve? document range =
        some ⟨String.ofList ('(' :: (mid ++ [')'])),
          ⟨document.positionAt o, document.positionAt (c + 1)⟩, .block⟩ ∧
      Utf8.encode mid = Block.inside (utf8Bytes document.text) o c ∧
      Utf8.encode ('(' :: (mid ++ [')'])) = ((utf8Bytes document.text).take (c + 1)).drop o := by
  obtain ⟨mid, hslice, hinside, hbytes⟩ := Document.slice_of_pair pair.toIsPair
  have found := (Document.enclosingBlock_of_innermost pair).1
  refine ⟨mid, ?_, hinside, hbytes⟩
  rw [resolve?_of_choose? (choose?_block h found) hslice, not_isBlankText_of_paren]
  rfl

/-- A bare cursor outside all pairs falls back on its line. -/
theorem choose?_outside (h : range.start = range.stop)
    (missing : ∀ o c,
      ¬ Block.Encloses (utf8Bytes document.text) (document.offsetAt range.start) o c) :
    choose? document range =
      document.lines[range.start.line]?.map fun line =>
        (⟨⟨range.start.line, 0⟩, ⟨range.start.line, line.width⟩⟩, .line) := by
  have chosen : choose? document range = (document.lineRange range.start.line).map (·, .line) :=
    choose?_line h (Document.enclosingBlock_of_not_encloses missing)
  rw [chosen, Document.lineRange, Option.map_map]
  rfl

theorem resolve?_line {line : Line} (h : range.start = range.stop)
    (missing : ∀ o c,
      ¬ Block.Encloses (utf8Bytes document.text) (document.offsetAt range.start) o c)
    (hline : document.lines[range.start.line]? = some line) :
    resolve? document range =
      if isBlankText (String.ofList line.body) then none
      else some ⟨String.ofList line.body,
        ⟨⟨range.start.line, 0⟩, ⟨range.start.line, line.width⟩⟩, .line⟩ := by
  have chosen := choose?_outside h missing
  rw [hline, Option.map_some] at chosen
  exact resolve?_of_choose? chosen (Document.slice_line hline)

/-- Past the last line there is nothing to fall back on. -/
theorem resolve?_past (h : range.start = range.stop)
    (missing : ∀ o c,
      ¬ Block.Encloses (utf8Bytes document.text) (document.offsetAt range.start) o c)
    (past : document.lineCount ≤ range.start.line) : resolve? document range = none := by
  rw [resolve?, choose?_outside h missing, List.getElem?_eq_none past]
  rfl

/-- The range of a block is not blank, and its ends are in order. -/
theorem lt_of_enclosingBlock {position : Position} {block : Range}
    (h : document.enclosingBlock position = some block) :
    block.start < block.stop ∧ isBlankText (document.slice block) = false := by
  by_cases around : ∃ o c,
      Block.Encloses (utf8Bytes document.text) (document.offsetAt position) o c
  · obtain ⟨o', c', around⟩ := around
    obtain ⟨o, c, pair⟩ := around.exists_isInnermost
    obtain ⟨found, left, right⟩ := Document.enclosingBlock_of_innermost pair
    obtain ⟨mid, hslice, -⟩ := Document.slice_of_pair pair.toIsPair
    obtain rfl := Option.some.inj (found.symm.trans h)
    refine ⟨?_, ?_⟩
    · rw [Position.lt_iff] at left right ⊢
      dsimp only at left right ⊢
      omega
    · rw [hslice, not_isBlankText_of_paren]
  · have missing := Document.enclosingBlock_of_not_encloses fun o c h => around ⟨o, c, h⟩
    rw [missing] at h
    contradiction

/-- **A bare cursor gives a block exactly where there is one.** -/
theorem resolve?_eq_block_iff {position : Position} {target : Target} :
    (resolve? document (.cursor position) = some target ∧ target.kind = .block) ↔
      document.enclosingBlock position = some target.range ∧
        target = ⟨document.slice target.range, target.range, .block⟩ := by
  constructor
  · rintro ⟨found, block⟩
    have chosen := choose?_of_resolve? found
    have code : target.code = document.slice target.range := code_of_resolve? found
    rw [block] at chosen
    refine ⟨?_, ?_⟩
    · cases h : document.enclosingBlock position with
      | some range =>
        have around : choose? document (.cursor position) = some (range, .block) :=
          choose?_block rfl h
        obtain ⟨rfl, -⟩ := Prod.mk.inj (Option.some.inj (around.symm.trans chosen))
        rfl
      | none =>
        have onLine : choose? document (.cursor position) =
            (document.lineRange position.line).map (·, .line) := choose?_line rfl h
        obtain ⟨range, -, same⟩ := Option.map_eq_some_iff.mp (onLine.symm.trans chosen)
        exact Kind.noConfusion (Prod.mk.inj same).2
    · rw [← code, ← block]
  · rintro ⟨h, htarget⟩
    have chosen : choose? document (.cursor position) = some (target.range, .block) :=
      choose?_block rfl h
    have code : TextSource.slice document target.range = document.slice target.range := rfl
    have found := resolve?_of_choose? chosen code
    rw [(lt_of_enclosingBlock h).2] at found
    rw [htarget]
    exact ⟨found, rfl⟩

/-- **The range of a block, selected, gives the same code.** -/
theorem resolve?_selected_block {position : Position} {block : Range}
    (h : document.enclosingBlock position = some block) :
    resolve? document (.between block.start block.stop) =
      some ⟨document.slice block, block, .selection⟩ := by
  obtain ⟨ordered, notBlank⟩ := lt_of_enclosingBlock h
  have chosen : choose? document block = some (block, .selection) :=
    choose?_selection ordered.2
  have code : TextSource.slice document block = document.slice block := rfl
  have found := resolve?_of_choose? chosen code
  rw [notBlank] at found
  rw [Range.between_of_lt ordered]
  exact found

/-- **The target of every range of a document**, in terms of its text.  A selection
gives the text between its ends, or nothing if that is blank.  A bare cursor inside
a pair of brackets gives the innermost one, whole, in a range that the cursor is
strictly inside of.  Any other cursor gives its line, unless that is blank or there
is none. -/
theorem resolve?_of_document (document : Document) (range : Range) :
    Line.Cut document.text.toList document.lines ∧
    (range.start ≠ range.stop → ∃ code : String,
      utf8Bytes code = ((utf8Bytes document.text).take
        (max (document.offsetAt range.start) (document.offsetAt range.stop))).drop
        (document.offsetAt range.start) ∧
      resolve? document range =
        if isBlankText code then none else some ⟨code, range, .selection⟩) ∧
    (range.start = range.stop →
      (∃ o c, Block.Encloses (utf8Bytes document.text) (document.offsetAt range.start) o c) →
      ∃ o c code block,
        Block.IsInnermost (utf8Bytes document.text) (document.offsetAt range.start) o c ∧
        resolve? document range = some ⟨code, block, .block⟩ ∧
        utf8Bytes code = ((utf8Bytes document.text).take (c + 1)).drop o ∧
        code.toList.head? = some '(' ∧ code.toList.getLast? = some ')' ∧
        Block.Balanced (utf8Bytes code) ∧
        block.start < document.positionAt (document.offsetAt range.start) ∧
        document.positionAt (document.offsetAt range.start) < block.stop) ∧
    (range.start = range.stop →
      (∀ o c, ¬ Block.Encloses (utf8Bytes document.text) (document.offsetAt range.start) o c) →
      (∀ line, document.lines[range.start.line]? = some line →
        resolve? document range =
          if isBlankText (String.ofList line.body) then none
          else some ⟨String.ofList line.body,
            ⟨⟨range.start.line, 0⟩, ⟨range.start.line, line.width⟩⟩, .line⟩) ∧
      (document.lineCount ≤ range.start.line → resolve? document range = none)) := by
  refine ⟨document.cut_lines, ?_, ?_, ?_⟩
  · intro h
    exact ⟨document.slice range, document.utf8Bytes_slice range,
      resolve?_of_choose? (choose?_selection h) rfl⟩
  · rintro h ⟨o', c', around⟩
    obtain ⟨o, c, pair⟩ := around.exists_isInnermost
    obtain ⟨mid, found, hinside, hbytes⟩ := resolve?_block h pair
    -- the code is the inside of the pair between its own two parentheses
    have balanced : Block.Balanced (Utf8.encode ('(' :: (mid ++ [')']))) := by
      rw [Block.encode_enclosed, hinside]
      exact pair.balanced.enclosed
    obtain ⟨-, left, right⟩ := Document.enclosingBlock_of_innermost pair
    refine ⟨o, c, _, _, pair, found, ?_, ?_, ?_, ?_, left, right⟩
    · rw [utf8Bytes, String.toList_ofList, hbytes]
    · rw [String.toList_ofList, List.head?_cons]
    · rw [String.toList_ofList, ← List.cons_append, List.getLast?_concat]
    · rwa [utf8Bytes, String.toList_ofList]
  · intro h missing
    exact ⟨fun line hline => resolve?_line h missing hline, resolve?_past h missing⟩

end Document

end Target

end LiveCoding
