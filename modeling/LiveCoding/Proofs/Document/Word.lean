import LiveCoding.Help
import LiveCoding.Proofs.Document.Name
import LiveCoding.Proofs.Document.Slice
import Mathlib.Data.List.Find

/-!
# The name at a position

Help is looked up for the name at the cursor, and only for a text that is one name and
nothing else (`Help.isSymbol`), because it is put into a script.  The two go together: what
is found at a position is always such a text, and such a text is always found, whole, at
its own start.

## Main Statements

* `Word.touchingByte?_eq`: names are found by bytes as by columns.
* `Document.wordRangeAt_eq_some_iff`, `Document.wordAt_eq_some_iff`: the name at a position.
* `Document.wordAt_origin_iff`: the texts that are found at their own start.
* `Document.word_lookup`: looking up a name, and the texts that may be looked up.
-/

namespace LiveCoding

namespace Word

/-- **Names are found by bytes as by columns**, however many bytes the characters in front
take. -/
theorem touchingByte?_eq (line : List Char) (column : Nat) :
    touchingByte? line (Utf8.size (line.take column)) = touching? line column := by
  refine List.find?_congr fun name hname => ?_
  have whole := mem_columns_iff.mp hname
  have hlt := whole.lt
  have within := whole.within
  have front : name.start ≤ line.length := by omega
  rw [Bool.eq_iff_iff, Bool.and_eq_true, Bool.and_eq_true, decide_eq_true_eq, decide_eq_true_eq,
    decide_eq_true_eq, decide_eq_true_eq, Utf8.size_take_le_iff, Utf8.size_take_le_iff]
  omega

/-- A character of a name is no break. -/
theorem not_isBreak_of_isPart {c : Char} (h : isPart c = true) : Line.isBreak c = false := by
  have other : Line.breaks.all (fun c => !isPart c) = true := by decide
  by_contra breaks
  rw [Bool.not_eq_false, Line.isBreak_iff_mem] at breaks
  have stops := List.all_eq_true.mp other c breaks
  rw [h] at stops
  contradiction

end Word

namespace Document

variable {document : Document}

/-- **The range at a position** is that of the name its column touches. -/
theorem wordRangeAt_eq_some_iff {position : Position} {line : Line} {range : Range}
    (hline : document.lines[position.line]? = some line) :
    document.wordRangeAt position = some range ↔ ∃ start stop,
      range = ⟨⟨position.line, start⟩, ⟨position.line, stop⟩⟩ ∧
        Word.Touches line.body position.column start stop := by
  have found : document.wordRangeAt position =
      (Word.touching? line.body position.column).bind fun name =>
        some (Range.between ⟨position.line, name.start⟩ ⟨position.line, name.stop⟩) := by
    rw [wordRangeAt, hline]
    rfl
  have ordered : ∀ {start stop : Nat}, start < stop →
      Range.between ⟨position.line, start⟩ ⟨position.line, stop⟩ =
        ⟨⟨position.line, start⟩, ⟨position.line, stop⟩⟩ := by
    intro start stop hlt
    exact if_pos (Or.inr ⟨rfl, Nat.le_of_lt hlt⟩)
  rw [found, Option.bind_eq_some_iff]
  constructor
  · rintro ⟨⟨start, stop⟩, hname, hrange⟩
    have touches := Word.touching?_eq_some_iff.mp hname
    rw [ordered touches.isWhole.lt] at hrange
    exact ⟨start, stop, (Option.some.inj hrange).symm, touches⟩
  · rintro ⟨start, stop, rfl, touches⟩
    refine ⟨⟨start, stop⟩, Word.touching?_eq_some_iff.mpr touches, ?_⟩
    rw [ordered touches.isWhole.lt]

/-- **The name at a position** is made of the characters that its range covers. -/
theorem wordAt_eq_some_iff {position : Position} {line : Line} {word : String}
    (hline : document.lines[position.line]? = some line) :
    document.wordAt position = some word ↔ ∃ start stop,
      Word.Touches line.body position.column start stop ∧
        word = String.ofList ((line.body.take stop).drop start) := by
  rw [wordAt, Option.map_eq_some_iff]
  constructor
  · rintro ⟨range, hrange, rfl⟩
    obtain ⟨start, stop, rfl, touches⟩ := (wordRangeAt_eq_some_iff hline).mp hrange
    exact ⟨start, stop, touches, slice_columns hline (Nat.le_of_lt touches.isWhole.lt)⟩
  · rintro ⟨start, stop, touches, rfl⟩
    exact ⟨_, (wordRangeAt_eq_some_iff hline).mpr ⟨start, stop, rfl, touches⟩,
      slice_columns hline (Nat.le_of_lt touches.isWhole.lt)⟩

/-- Where there is no such line, there is no name. -/
theorem exists_line_of_wordAt {position : Position} {word : String}
    (h : document.wordAt position = some word) :
    ∃ line, document.lines[position.line]? = some line := by
  obtain ⟨range, hrange, -⟩ := Option.map_eq_some_iff.mp h
  obtain ⟨line, hline, -⟩ := Option.bind_eq_some_iff.mp hrange
  exact ⟨line, hline⟩

/-- **Every name found may be looked up.** -/
theorem isSymbol_of_wordAt {position : Position} {word : String}
    (h : document.wordAt position = some word) : Help.isSymbol word = true := by
  obtain ⟨line, hline⟩ := exists_line_of_wordAt h
  obtain ⟨start, stop, touches, rfl⟩ := (wordAt_eq_some_iff hline).mp h
  rw [Help.isSymbol, String.toList_ofList]
  exact touches.isWhole.isName_slice

/-- **The texts that may be looked up** are those that are found, whole, at their own start. -/
theorem wordAt_origin_iff (name : String) :
    (ofText name).wordAt .origin = some name ↔ Help.isSymbol name = true := by
  refine ⟨isSymbol_of_wordAt, fun symbol => ?_⟩
  rw [Help.isSymbol] at symbol
  have clean : ∀ c ∈ name.toList, Line.isBreak c = false := fun c hc =>
    Word.not_isBreak_of_isPart (Word.isPart_of_mem symbol c hc)
  have lines : (ofText name).lines = [⟨name.toList, []⟩] :=
    (ofText name).cut_lines.eq_singleton clean
  have hline : (ofText name).lines[Position.origin.line]? = some ⟨name.toList, []⟩ := by
    rw [lines]
    rfl
  -- the whole line is one name, and nothing is around it
  have parts : Word.Parts (name.toList ++ []) [] [] name.toList [] :=
    Word.parts_name symbol nofun
  rw [List.append_nil] at parts
  have whole : Word.IsWhole name.toList 0 name.toList.length := parts.isWhole
  refine (wordAt_eq_some_iff hline).mpr
    ⟨0, name.toList.length, whole.touches (Nat.le_refl 0) (Nat.zero_le _), ?_⟩
  rw [List.take_length, List.drop_zero, String.ofList_toList]

/-- **Looking up a name.**  The range at a position is that of the name which its column
touches, whole: of its first character or any other, or right behind.  There is no more
than one, so every such column gives the same range, and bytes are as good as columns to
find it.  The word there is made of its characters and may be looked up; and the texts
that may be looked up are those that are found, whole, at their own start. -/
theorem word_lookup :
    (∀ (document : Document) (position : Position), position.line < document.lineCount →
      ∃ line : String, document.lineAt position.line = some line ∧
        (∀ range, document.wordRangeAt position = some range ↔ ∃ start stop,
          range = ⟨⟨position.line, start⟩, ⟨position.line, stop⟩⟩ ∧
            Word.Touches line.toList position.column start stop) ∧
        (∀ start stop start' stop', Word.Touches line.toList position.column start stop →
          Word.Touches line.toList position.column start' stop' → start = start' ∧ stop = stop') ∧
        (∀ start stop column, Word.IsWhole line.toList start stop → start ≤ column →
          column ≤ stop → document.wordRangeAt ⟨position.line, column⟩ =
            some ⟨⟨position.line, start⟩, ⟨position.line, stop⟩⟩) ∧
        (Word.touchingByte? line.toList (Utf8.size (line.toList.take position.column)) =
          Word.touching? line.toList position.column) ∧
        ∀ word, document.wordAt position = some word ↔ ∃ start stop,
          Word.Touches line.toList position.column start stop ∧
            word = String.ofList ((line.toList.take stop).drop start)) ∧
      (∀ (document : Document) (position : Position) (word : String),
        document.wordAt position = some word → Help.isSymbol word = true) ∧
      ∀ name, Help.isSymbol name = true ↔ (ofText name).wordAt .origin = some name := by
  refine ⟨?_, fun _ _ _ => isSymbol_of_wordAt, fun name => (wordAt_origin_iff name).symm⟩
  intro document position hlt
  obtain ⟨line, hline⟩ : ∃ line, document.lines[position.line]? = some line :=
    ⟨_, List.getElem?_eq_getElem hlt⟩
  refine ⟨String.ofList line.body, by rw [lineAt, hline, Option.map_some], ?_⟩
  rw [String.toList_ofList]
  refine ⟨fun range => wordRangeAt_eq_some_iff hline, ?_, ?_,
    Word.touchingByte?_eq line.body position.column, fun word => wordAt_eq_some_iff hline⟩
  · intro start stop start' stop' touches touches'
    exact touches.unique touches'
  · intro start stop column whole hstart hstop
    have sameLine : document.lines[(⟨position.line, column⟩ : Position).line]? = some line := hline
    exact (wordRangeAt_eq_some_iff sameLine).mpr ⟨start, stop, rfl, whole.touches hstart hstop⟩

/-- Digits in front of a name are no part of it, those in it are, and a column right behind it
touches it. -/
example :
    let document := ofText "é 12ab3(\n"
    document.wordAt ⟨0, 3⟩ = none ∧ document.wordAt ⟨0, 4⟩ = some "ab3" ∧
      document.wordRangeAt ⟨0, 7⟩ = some ⟨⟨0, 4⟩, ⟨0, 7⟩⟩ := by
  decide

end Document

end LiveCoding
