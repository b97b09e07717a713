import LiveCoding.CommandLine.Run
import LiveCoding.Proofs.CommandLine.Arguments
import LiveCoding.Proofs.Target

/-!
# Locating and evaluating

What is printed about a cursor is what would be sent from there, and the range that is
printed with it selects the same code.

## Main Definitions

* `CommandLine.cursorWords`: the options for a cursor, as words.
* `CommandLine.blockText`: what is printed about a block and its range.

## Main Statements

* `CommandLine.read_locate`, `CommandLine.read_evaluate`: both commands read a cursor alike.
* `CommandLine.runCommand_locate`: what is printed, by the block at the cursor.
* `CommandLine.locate_agrees`: it is the target of the cursor and of the printed range.

## Design Notes

A range has to fit the numbers that a user can write: lines and columns count characters, so
a text with fewer bytes than the greatest number has room for one more.
-/

namespace LiveCoding

/-- No file can be opened without a name. -/
theorem Document.ne_empty_of_ofFile {files : Files} {file : String} {document : Document}
    (h : Document.ofFile files (.ofText file) = .ok document) : file ≠ "" := by
  rintro rfl
  have missing : files.read (.ofText "") = .error .notFound := rfl
  rw [Document.ofFile, missing] at h
  contradiction

namespace CommandLine

open Arguments Command

/-! ### Words for a cursor -/

section Words

variable {file : String} {line column : Option String} {stop? : Option Position}
variable {choice : Choice} {word : String} {option : Choice × Token}
variable {more : List (Choice × Token)}

/-- The number that a word for a line or a column means; without one it is the first. -/
def ordinalOf (word? : Option String) : Nat :=
  (word?.bind fun word => readOrdinal? word.toList).getD 0

/-- The cursor that is meant. -/
def cursorOf (line column : Option String) : Position :=
  ⟨ordinalOf line, ordinalOf column⟩

/-- A line or a column that can be given. -/
def IsOrdinal (word? : Option String) : Prop :=
  ∀ word ∈ word?, (readOrdinal? word.toList).isSome = true

/-- A line and a column as a user counts, in one word. -/
def placeWord (position : Position) : String :=
  toString (position.line + 1) ++ ":" ++ toString (position.column + 1)

/-- An option that may be given, with its value. -/
def givenOption (choice : Choice) (word? : Option String) : List (Choice × Token) :=
  (word?.map fun word => (choice, word.toList)).toList

/-- The same as words. -/
def givenWords (choice : Choice) (word? : Option String) : List String :=
  (word?.map fun word => [choice.long, word]).getD []

/-- The options for a cursor, as words. -/
def cursorWords (line column : Option String) : List String :=
  givenWords .line line ++ givenWords .column column

theorem isOrdinal_toString {n : Nat} (h : n ≤ maxUnsigned) : IsOrdinal (some (toString n)) := by
  rintro _ ⟨⟩
  rw [readOrdinal?_toString h]
  rfl

theorem cursorOf_toString {position : Position} (hline : position.line < maxUnsigned)
    (hcolumn : position.column < maxUnsigned) :
    cursorOf (some (toString (position.line + 1))) (some (toString (position.column + 1))) =
      position := by
  have ordinal {n : Nat} (h : n < maxUnsigned) : ordinalOf (some (toString (n + 1))) = n := by
    rw [ordinalOf, Option.bind_some, readOrdinal?_toString h]
    rfl
  rw [cursorOf, ordinal hline, ordinal hcolumn]

theorem fits_ordinal (h : choice = .line ∨ choice = .column)
    (accepts : (readOrdinal? word.toList).isSome = true) : Fits (choice, word.toList) := by
  have can := canBeValue_of_head? (head?_of_readOrdinal? accepts) choice
  rcases h with rfl | rfl
  · exact ⟨accepts, fun _ => can, Bool.noConfusion⟩
  · exact ⟨accepts, fun _ => can, Bool.noConfusion⟩

theorem fits_selectionEnd {position : Position} (hline : position.line < maxUnsigned)
    (hcolumn : position.column < maxUnsigned) :
    Fits (.selectionEnd, (placeWord position).toList) where
  accepts := by
    rw [Choice.accepts, placeWord, readPosition?_word hline hcolumn]
    rfl
  value _ := by
    refine canBeValue_of_head? ?_ _
    rw [placeWord, String.toList_append, String.toList_append, List.append_assoc,
      List.head?_append]
    have begins := head?_of_readOrdinal? (isOrdinal_toString (n := position.line + 1) hline _ rfl)
    cases first : (toString (position.line + 1)).toList.head? with
    | none =>
      have digits : (toString (position.line + 1)).toList = Nat.toDigits 10 (position.line + 1) :=
        Nat.toList_repr
      rw [digits, List.head?_eq_none_iff] at first
      exact absurd first Nat.toDigits_ne_nil
    | some c =>
      rw [first] at begins
      exact begins
  switch := Bool.noConfusion

theorem mem_givenOption {word? : Option String} :
    option ∈ givenOption choice word? ↔ ∃ word ∈ word?, (choice, word.toList) = option := by
  rw [givenOption, Option.mem_toList, Option.map_eq_some_iff]
  rfl

theorem map_givenWords (h : choice.wantsValue = true) (word? : Option String) :
    (givenWords choice word?).map String.toList =
      (givenOption choice word?).flatMap optionWords := by
  cases word? with
  | none => rfl
  | some word =>
    rw [givenOption, Option.map_some, Option.toList_some, List.flatMap_singleton, optionWords, h]
    rfl

/-- **A cursor is read**, whatever options stand behind it. -/
theorem read_cursor {name : Name} {command : Command} {words : List String}
    (wants : name.wantsFile = true) (byLine : Choice.line ∈ (Level.inner name).choices)
    (byColumn : Choice.column ∈ (Level.inner name).choices) (named : file ≠ "")
    (hline : IsOrdinal line) (hcolumn : IsOrdinal column)
    (member : ∀ option ∈ more, option.1 ∈ (Level.inner name).choices)
    (fits : ∀ option ∈ more, Fits option)
    (distinct : (Choice.line :: Choice.column :: more.map Prod.fst).Nodup)
    (chosen : command? name
      { choices := (givenOption .line line ++ (givenOption .column column ++ more)).reverse,
        file := some file.toList } = some command)
    (hwords : words.map String.toList = more.flatMap optionWords) :
    read (name.word :: (cursorWords line column ++ (words ++ ["--", file]))) =
      .run (flags
        { choices := (givenOption .line line ++ (givenOption .column column ++ more)).reverse,
          file := some file.toList }) command := by
  refine read_words wants (mt String.toList_eq_nil_iff.mp named) ?_ ?_ ?_ chosen ?_
  · intro option h
    rcases List.mem_append.mp h with h | h
    · obtain ⟨word, -, rfl⟩ := mem_givenOption.mp h
      exact byLine
    rcases List.mem_append.mp h with h | h
    · obtain ⟨word, -, rfl⟩ := mem_givenOption.mp h
      exact byColumn
    · exact member option h
  · intro option h
    rcases List.mem_append.mp h with h | h
    · obtain ⟨word, hword, rfl⟩ := mem_givenOption.mp h
      exact fits_ordinal (Or.inl rfl) (hline word hword)
    rcases List.mem_append.mp h with h | h
    · obtain ⟨word, hword, rfl⟩ := mem_givenOption.mp h
      exact fits_ordinal (Or.inr rfl) (hcolumn word hword)
    · exact fits option h
  · refine distinct.sublist ?_
    cases line <;> cases column <;> simp [givenOption]
  · simp only [cursorWords, List.map_cons, List.map_append, List.flatMap_append, hwords,
      map_givenWords (show Choice.wantsValue .line = true from rfl),
      map_givenWords (show Choice.wantsValue .column = true from rfl), List.append_assoc]
    rfl

/-- **A cursor is read by `locate`.** -/
theorem read_locate (named : file ≠ "") (hline : IsOrdinal line) (hcolumn : IsOrdinal column)
    (json : Bool) :
    read ("locate" :: (cursorWords line column ++
        ((if json then ["--json"] else []) ++ ["--", file]))) =
      .run {} (.locate file (cursorOf line column) json) := by
  have fits : ∀ option ∈ (if json then [(Choice.json, [])] else []), Fits option := by
    intro option h
    split at h
    · obtain rfl := List.mem_singleton.mp h
      exact ⟨rfl, Bool.noConfusion, fun _ => rfl⟩
    · contradiction
  have chosen : command? .locate
      { choices := (givenOption .line line ++ (givenOption .column column ++
          if json then [(Choice.json, [])] else [])).reverse,
        file := some file.toList } =
        some (.locate file (cursorOf line column) json) := by
    rw [command?, Option.map_some, String.ofList_toList]
    cases line <;> cases column <;> cases json <;> rfl
  refine (read_cursor rfl (by decide) (by decide) named hline hcolumn ?_ fits ?_ chosen ?_).trans ?_
  · cases json <;> decide
  · cases json <;> decide
  · cases json <;> rfl
  · cases line <;> cases column <;> cases json <;> rfl

/-- **A cursor is read by `eval`** in the same way, and the end of a selection with it. -/
theorem read_evaluate (named : file ≠ "") (hline : IsOrdinal line) (hcolumn : IsOrdinal column)
    (hstop : ∀ stop ∈ stop?, stop.line < maxUnsigned ∧ stop.column < maxUnsigned) :
    read ("eval" :: (cursorWords line column ++
        (givenWords .selectionEnd (stop?.map placeWord) ++ ["--", file]))) =
      .run {} (.evaluate file (cursorOf line column) stop?) := by
  have fits : ∀ option ∈ givenOption .selectionEnd (stop?.map placeWord), Fits option := by
    intro option h
    obtain ⟨word, hword, rfl⟩ := mem_givenOption.mp h
    obtain ⟨stop, hmem, rfl⟩ := Option.map_eq_some_iff.mp hword
    exact fits_selectionEnd (hstop stop hmem).1 (hstop stop hmem).2
  have stops : ((stop?.map placeWord).bind fun word => readPosition? word.toList) = stop? := by
    cases stop? with
    | none => rfl
    | some stop => exact readPosition?_word (hstop stop rfl).1 (hstop stop rfl).2
  have chosen : command? .evaluate
      { choices := (givenOption .line line ++ (givenOption .column column ++
          givenOption .selectionEnd (stop?.map placeWord))).reverse,
        file := some file.toList } =
        some (.evaluate file (cursorOf line column) stop?) := by
    rw [command?, Option.map_some, String.ofList_toList]
    conv_rhs => rw [← stops]
    cases line <;> cases column <;> cases stop? <;> rfl
  refine (read_cursor rfl (by decide) (by decide) named hline hcolumn ?_ fits ?_ chosen
    (map_givenWords rfl _)).trans ?_
  · intro option h
    obtain ⟨word, -, rfl⟩ := mem_givenOption.mp h
    show Choice.selectionEnd ∈ (Level.inner .evaluate).choices
    decide
  · cases stop? <;> simp [givenOption]
  · cases line <;> cases column <;> cases stop? <;> rfl

end Words

/-! ### What is printed -/

section Print

variable {stage : Stage} {file : String} {document : Document} {cursor : Position}

/-- A position as it is printed. -/
def positionText (position : Position) : String :=
  "\x7b\"column\":" ++ toString (position.column + 1) ++ ",\"line\":" ++
    toString (position.line + 1) ++ "\x7d"

/-- What is printed about a block and its range. -/
def blockText (code : String) (range : Range) : String :=
  "\x7b\"code\":" ++ Json.renderText code ++ ",\"end\":" ++ positionText range.stop ++
    ",\"start\":" ++ positionText range.start ++ "\x7d"

theorem renderText_keys :
    Json.renderText "column" = "\"column\"" ∧ Json.renderText "line" = "\"line\"" ∧
      Json.renderText "code" = "\"code\"" ∧ Json.renderText "end" = "\"end\"" ∧
      Json.renderText "start" = "\"start\"" := by
  decide

theorem render_positionValue (position : Position) :
    (positionValue position).render = positionText position := by
  obtain ⟨hcolumn, hline, -⟩ := renderText_keys
  have members : (positionValue position).render =
      "\x7b" ++ (Json.renderText "column" ++ ":" ++ toString (position.column + 1) ++ "," ++
        (Json.renderText "line" ++ ":" ++ toString (position.line + 1))) ++ "\x7d" := rfl
  rw [members, hcolumn, hline, positionText]
  apply String.toList_injective
  simp

/-- **The answer about a block** gives its range in numbers counted from one. -/
theorem render_blockValue (document : Document) (cursor : Position) :
    (blockValue document cursor).render =
      match document.enclosingBlock cursor with
      | none => "null"
      | some range => blockText (document.slice range) range := by
  obtain ⟨-, -, hcode, hend, hstart⟩ := renderText_keys
  rw [blockValue]
  cases document.enclosingBlock cursor with
  | none => rfl
  | some range =>
    have members : Json.Value.render (.record [("code", .text (document.slice range)),
        ("end", positionValue range.stop), ("start", positionValue range.start)]) =
        "\x7b" ++ (Json.renderText "code" ++ ":" ++ Json.renderText (document.slice range) ++ "," ++
          (Json.renderText "end" ++ ":" ++ (positionValue range.stop).render) ++ "," ++
          (Json.renderText "start" ++ ":" ++ (positionValue range.start).render)) ++ "\x7d" := rfl
    dsimp only
    rw [members, hcode, hend, hstart, render_positionValue, render_positionValue, blockText]
    apply String.toList_injective
    simp

/-- What the user has been told after an answer. -/
def answered (transcript : Transcript) (text : String) : Transcript :=
  { transcript with output := transcript.output ++ utf8Bytes (text ++ "\n") }

theorem openDocument_eq
    (opened : Document.ofFile stage.world.files (.ofText file) = .ok document)
    (transcript : Transcript) :
    openDocument file (stage, transcript) = .ok document (stage, transcript) := by
  have state : (MonadState.get : Job Stage (Stage × Transcript)) (stage, transcript) =
      .ok (stage, transcript) (stage, transcript) := rfl
  unfold openDocument
  show EStateM.bind _ _ (stage, transcript) = _
  unfold EStateM.bind
  rw [state]
  dsimp only
  rw [opened]
  rfl

/-- `locate` gives its answer. -/
theorem runCommand_locate
    (opened : Document.ofFile stage.world.files (.ofText file) = .ok document) {json : Bool}
    {text : String} (h : blockAnswer document cursor json = .ok text) (quiet : Bool)
    (input : List UInt8) (transcript : Transcript) :
    runCommand (.locate file cursor json) quiet input (stage, transcript) =
      .ok () (stage, answered transcript text) := by
  show EStateM.bind (openDocument file) _ (stage, transcript) = _
  rw [EStateM.bind, openDocument_eq opened]
  dsimp only
  rw [h]
  rfl

/-- Without an answer it fails, and nothing has changed. -/
theorem runCommand_locate_error
    (opened : Document.ofFile stage.world.files (.ofText file) = .ok document) {json : Bool}
    {failure : Failure} (h : blockAnswer document cursor json = .error failure) (quiet : Bool)
    (input : List UInt8) (transcript : Transcript) :
    runCommand (.locate file cursor json) quiet input (stage, transcript) =
      .error failure (stage, transcript) := by
  show EStateM.bind (openDocument file) _ (stage, transcript) = _
  rw [EStateM.bind, openDocument_eq opened]
  dsimp only
  rw [h]
  rfl

/-- **Locating and evaluating agree.**  Both read the cursor alike.  Where evaluating would
take a block, its code is what `locate` prints, and the range that is printed with it in
numbers from one is read as a selection of the same code; anywhere else there is nothing to
print. -/
theorem locate_agrees {line column : Option String}
    (opened : Document.ofFile stage.world.files (.ofText file) = .ok document)
    (fits : document.size < maxUnsigned) (hline : IsOrdinal line) (hcolumn : IsOrdinal column)
    (quiet : Bool) (input : List UInt8) (transcript : Transcript) :
    (read ("locate" :: (cursorWords line column ++ ["--", file])) =
        .run {} (.locate file (cursorOf line column) false) ∧
      read ("locate" :: (cursorWords line column ++ ["--json", "--", file])) =
        .run {} (.locate file (cursorOf line column) true) ∧
      read ("eval" :: (cursorWords line column ++ ["--", file])) =
        .run {} (.evaluate file (cursorOf line column) none)) ∧
    (∀ target, Target.resolve? document (selection (cursorOf line column) none) = some target →
      target.kind = .block →
        runCommand (.locate file (cursorOf line column) false) quiet input (stage, transcript) =
          .ok () (stage, answered transcript target.code) ∧
        runCommand (.locate file (cursorOf line column) true) quiet input (stage, transcript) =
          .ok () (stage, answered transcript (blockText target.code target.range)) ∧
        read ("eval" :: (cursorWords (some (toString (target.range.start.line + 1)))
            (some (toString (target.range.start.column + 1))) ++
            ["--to", placeWord target.range.stop, "--", file])) =
          .run {} (.evaluate file target.range.start (some target.range.stop)) ∧
        Target.resolve? document (selection target.range.start (some target.range.stop)) =
          some ⟨target.code, target.range, .selection⟩) ∧
    ((∀ target, Target.resolve? document (selection (cursorOf line column) none) = some target →
        target.kind ≠ .block) →
      runCommand (.locate file (cursorOf line column) false) quiet input (stage, transcript) =
          .error ⟨"No enclosing block at the cursor", []⟩ (stage, transcript) ∧
        runCommand (.locate file (cursorOf line column) true) quiet input (stage, transcript) =
          .ok () (stage, answered transcript "null")) := by
  have named := Document.ne_empty_of_ofFile opened
  have noStop : ∀ stop ∈ (none : Option Position),
      stop.line < maxUnsigned ∧ stop.column < maxUnsigned := nofun
  refine ⟨⟨read_locate named hline hcolumn false, read_locate named hline hcolumn true,
    read_evaluate named hline hcolumn noStop⟩, ?_, ?_⟩
  · intro target found block
    obtain ⟨around, same⟩ := Target.resolve?_eq_block_iff.mp ⟨found, block⟩
    have code : target.code = document.slice target.range := congrArg Target.code same
    obtain ⟨hstart, hstop⟩ := Document.enclosingBlock_le around
    have startLine : target.range.start.line < maxUnsigned := by omega
    have startColumn : target.range.start.column < maxUnsigned := by omega
    have stopFits : ∀ stop ∈ some target.range.stop,
        stop.line < maxUnsigned ∧ stop.column < maxUnsigned := by
      rintro stop ⟨⟩
      exact ⟨by omega, by omega⟩
    have fed := read_evaluate named (isOrdinal_toString startLine)
      (isOrdinal_toString startColumn) stopFits
    rw [cursorOf_toString startLine startColumn] at fed
    refine ⟨?_, ?_, fed, ?_⟩
    · refine runCommand_locate opened ?_ quiet input transcript
      rw [blockAnswer, if_neg Bool.false_ne_true, around, code]
    · refine runCommand_locate opened ?_ quiet input transcript
      rw [blockAnswer, if_pos rfl, render_blockValue, around, code]
    · rw [code]
      exact Target.resolve?_selected_block around
  · intro other
    have missing : document.enclosingBlock (cursorOf line column) = none := by
      cases around : document.enclosingBlock (cursorOf line column) with
      | none => rfl
      | some block =>
        have found : Target.resolve? document (.cursor (cursorOf line column)) =
            some ⟨document.slice block, block, .block⟩ :=
          (Target.resolve?_eq_block_iff.mpr ⟨around, rfl⟩).1
        exact absurd rfl (other _ found)
    refine ⟨?_, ?_⟩
    · refine runCommand_locate_error opened ?_ quiet input transcript
      rw [blockAnswer, if_neg Bool.false_ne_true, missing]
    · refine runCommand_locate opened ?_ quiet input transcript
      rw [blockAnswer, if_pos rfl, render_blockValue, missing]

/-- A block behind letters of two bytes and a line ending of two characters. -/
def sampleDocument : Document where
  text := "é\r\n(ü\r\n)"
  path := some (.ofText "f")

/-- A session beside that file. -/
def sampleStage : Stage where
  session := ⟨({} : Flags).resolve, 57121, ⟨"127.0.0.1", 57120, none⟩, none, false, false, {}⟩
  world := { files := { root := .directory [([102], .file (utf8Bytes "é\r\n(ü\r\n)"))] } }

/-- A cursor with a sign and a leading zero finds the block of the second line, and the range
that is printed is read back; at the start there is no block. -/
theorem locate_agrees_second_line :
    Document.ofFile sampleStage.world.files (.ofText "f") = .ok sampleDocument ∧
    read ["locate", "--line", "+2", "--column", "02", "--json", "--", "f"] =
      .run {} (.locate "f" ⟨1, 1⟩ true) ∧
    runCommand (.locate "f" ⟨1, 1⟩ true) false [] (sampleStage, {}) =
      .ok () (sampleStage, answered {}
        ("\x7b\"code\":\"(ü\\r\\n)\",\"end\":\x7b\"column\":2,\"line\":3\x7d," ++
          "\"start\":\x7b\"column\":1,\"line\":2\x7d\x7d")) ∧
    read ["eval", "--line", "2", "--column", "1", "--to", "3:2", "--", "f"] =
      .run {} (.evaluate "f" ⟨1, 0⟩ (some ⟨2, 1⟩)) ∧
    Target.resolve? sampleDocument (selection ⟨1, 0⟩ (some ⟨2, 1⟩)) =
      some ⟨"(ü\r\n)", ⟨⟨1, 0⟩, ⟨2, 1⟩⟩, .selection⟩ ∧
    runCommand (.locate "f" ⟨0, 0⟩ true) false [] (sampleStage, {}) =
      .ok () (sampleStage, answered {} "null") := by
  have held : sampleStage.world.files.read (.ofText "f") =
      .ok (Utf8.encode "é\r\n(ü\r\n)".toList) := rfl
  have opened : Document.ofFile sampleStage.world.files (.ofText "f") = .ok sampleDocument := by
    rw [Document.ofFile, held]
    dsimp only
    rw [Utf8.decode_encode]
    rfl
  have fits : sampleDocument.size < maxUnsigned := by decide +kernel
  have line : IsOrdinal (some "+2") := by
    rintro _ ⟨⟩
    decide
  have column : IsOrdinal (some "02") := by
    rintro _ ⟨⟩
    decide
  have first : IsOrdinal none := nofun
  have cursor : cursorOf (some "+2") (some "02") = ⟨1, 1⟩ := by decide
  have inside : Target.resolve? sampleDocument (selection ⟨1, 1⟩ none) =
      some ⟨"(ü\r\n)", ⟨⟨1, 0⟩, ⟨2, 1⟩⟩, .block⟩ := by decide +kernel
  have outside : ∀ target,
      Target.resolve? sampleDocument (selection (cursorOf none none) none) = some target →
        target.kind ≠ .block := by
    have onLine : Target.resolve? sampleDocument (selection (cursorOf none none) none) =
        some ⟨"é", ⟨⟨0, 0⟩, ⟨0, 1⟩⟩, .line⟩ := by decide +kernel
    rw [onLine]
    rintro target ⟨⟩
    decide
  obtain ⟨⟨-, asked, -⟩, found, -⟩ := locate_agrees opened fits line column false [] {}
  obtain ⟨-, -, missing⟩ := locate_agrees opened fits first first false [] {}
  rw [cursor] at asked found
  obtain ⟨-, printed, fed, selected⟩ := found _ inside rfl
  have shown : blockText "(ü\r\n)" ⟨⟨1, 0⟩, ⟨2, 1⟩⟩ =
      "\x7b\"code\":\"(ü\\r\\n)\",\"end\":\x7b\"column\":2,\"line\":3\x7d," ++
        "\"start\":\x7b\"column\":1,\"line\":2\x7d\x7d" := by decide +kernel
  have words : cursorWords (some (toString (1 + 1))) (some (toString (0 + 1))) ++
      ["--to", placeWord ⟨2, 1⟩, "--", "f"] =
        ["--line", "2", "--column", "1", "--to", "3:2", "--", "f"] := by decide +kernel
  rw [shown] at printed
  rw [words] at fed
  exact ⟨opened, asked, printed, fed, selected, (missing outside).2⟩

end Print

end CommandLine

end LiveCoding
