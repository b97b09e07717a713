import LiveCoding.Proofs.Block.Characters
import LiveCoding.Proofs.Document.Geometry

/-!
# Blocks of a document

A block is found in the bytes of a text and reported by positions.  Both of its ends
are places beside a parenthesis, which is one byte and no part of a line ending, so
nothing is lost on the way: the range of a block covers exactly the bytes of the
pair that was found.

## Main Statements

* `Document.enclosingBlock_of_innermost`: the range of the block around a position.
* `Document.slice_of_pair`: the text in that range.
-/

namespace LiveCoding

open Block (IsPair IsInnermost Balanced opening closing)

theorem Range.between_of_lt {p q : Position} (h : p < q) : Range.between p q = ⟨p, q⟩ :=
  if_pos (Position.le_of_lt h)

namespace Document

variable {document : Document}

/-- The two ends of a pair keep their places on the way to positions and back, and
what stands between them is the pair with everything inside it. -/
theorem slice_of_pair {o c : Nat} (pair : IsPair (utf8Bytes document.text) o c) :
    ∃ mid, document.slice ⟨document.positionAt o, document.positionAt (c + 1)⟩ =
        String.ofList ('(' :: (mid ++ [')'])) ∧
      Utf8.encode mid = Block.inside (utf8Bytes document.text) o c ∧
      Utf8.encode ('(' :: (mid ++ [')'])) = ((utf8Bytes document.text).take (c + 1)).drop o := by
  obtain ⟨before, mid, after, htext, rfl, rfl⟩ := pair.exists_cut
  have hstart : Utf8.size before + 1 = Utf8.size (before ++ ['(']) := by
    rw [Utf8.size_append]
    rfl
  have hstop : Utf8.size (before ++ '(' :: mid) + 1 =
      Utf8.size (before ++ '(' :: (mid ++ [')'])) := by
    rw [← List.cons_append, ← List.append_assoc, Utf8.size_append (before ++ '(' :: mid)]
    rfl
  have toStart : document.offsetAt (document.positionAt (Utf8.size before)) =
      Utf8.size before := by
    refine offsetAt_positionAt htext ?_
    rintro ⟨-, hfeed⟩
    simp at hfeed
  have toStop : document.offsetAt
      (document.positionAt (Utf8.size (before ++ '(' :: (mid ++ [')'])))) =
      Utf8.size (before ++ '(' :: (mid ++ [')'])) := by
    rw [← List.append_assoc] at htext
    refine offsetAt_positionAt htext ?_
    rintro ⟨hreturn, -⟩
    simp [List.getLast?_append, List.getLast?_cons] at hreturn
  refine ⟨mid, ?_, ?_, ?_⟩
  · rw [hstop]
    refine slice_of_cut htext toStart ?_
    rw [toStart, toStop, Utf8.size_append]
    omega
  · have between := Utf8.slice_encode (before ++ ['(']) mid ([')'] ++ after)
    rw [Block.inside, hstart, utf8Bytes, htext]
    simpa using between.symm
  · rw [hstop, utf8Bytes, htext, Utf8.slice_encode]

/-- **The block around a position** goes from the position of its opening
parenthesis to the position behind its closing one, and the position of the cursor
is strictly between the two. -/
theorem enclosingBlock_of_innermost {position : Position} {o c : Nat}
    (pair : IsInnermost (utf8Bytes document.text) (document.offsetAt position) o c) :
    document.enclosingBlock position =
        some ⟨document.positionAt o, document.positionAt (c + 1)⟩ ∧
      document.positionAt o < document.positionAt (document.offsetAt position) ∧
      document.positionAt (document.offsetAt position) < document.positionAt (c + 1) := by
  have found := (Block.locate_eq_some_iff _ _ _).mpr ⟨o, c, rfl, pair⟩
  have hlt := pair.lt
  have hbehind := pair.behind
  have hwithin := pair.within
  obtain ⟨before, mid, after, htext, hbefore, hclose⟩ := pair.toIsPair.exists_cut
  obtain ⟨toCursor, behind, htext', hcursor, -⟩ := document.exists_offsetAt position
  have hstop : Utf8.size (before ++ '(' :: (mid ++ [')'])) = c + 1 := by
    rw [← List.cons_append, ← List.append_assoc, Utf8.size_append, hclose]
    rfl
  -- three cuts of the text, in this order
  have atStart : before <+: document.text.toList := ⟨_, htext.symm⟩
  have atCursor : toCursor <+: document.text.toList := ⟨_, htext'.symm⟩
  have atStop : before ++ '(' :: (mid ++ [')']) <+: document.text.toList :=
    ⟨after, by rw [htext, List.append_assoc]⟩
  have toStop := positionAt_lt atStart atStop (by omega)
  have left := positionAt_lt atStart atCursor (by omega)
  have right := positionAt_lt atCursor atStop (by omega)
  rw [hbefore, hstop] at toStop
  rw [hbefore, ← hcursor] at left
  rw [hstop, ← hcursor] at right
  refine ⟨?_, left, right⟩
  rw [enclosingBlock, found, Option.map_some, spanToRange, Range.between_of_lt toStop]

theorem enclosingBlock_of_not_encloses {position : Position}
    (missing : ∀ o c, ¬ Block.Encloses (utf8Bytes document.text) (document.offsetAt position) o c) :
    document.enclosingBlock position = none := by
  rw [enclosingBlock, (Block.locate_eq_none_iff _ _).mpr missing, Option.map_none]

/-- The ends of a block lie no further out than the text is long. -/
theorem enclosingBlock_le {position : Position} {block : Range}
    (h : document.enclosingBlock position = some block) :
    block.start.line + block.start.column ≤ document.size ∧
      block.stop.line + block.stop.column ≤ document.size := by
  obtain ⟨span, -, rfl⟩ := Option.map_eq_some_iff.mp h
  have start := document.positionAt_le span.start
  have stop := document.positionAt_le span.stop
  rw [spanToRange, Range.between]
  split
  · exact ⟨start, stop⟩
  · exact ⟨stop, start⟩

end Document

end LiveCoding
