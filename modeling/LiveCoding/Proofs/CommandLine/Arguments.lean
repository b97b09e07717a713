import LiveCoding.CommandLine.Arguments
import LiveCoding.Proofs.Text.Numeral
import LiveCoding.Proofs.Text.Pieces
import Mathlib.Data.List.Nodup

/-!
# Words read back

The options of a command and its file, written as words, are read as they were meant: each
option with its value, in any order, as long as none is given twice and each accepts what
it is given.

## Main Definitions

* `Arguments.Fits`: an option with a value that it can have as a word of its own.
* `Arguments.optionWords`: the words for an option and its value.

## Main Statements

* `Arguments.readLevel_words`: options and a file are read back.
* `Arguments.read_words`: so is a whole command line.
* `Command.readOrdinal?_toString`, `Command.readPosition?_word`: numbers and places that a
  user counts from one.

## Design Notes

A value in a word of its own is held until the next word is read.  What is carried along
the words is therefore not what was read, but what it will have been once the value that is
held has been looked at (`Given.settle?`).
-/

namespace LiveCoding

/-! ### Numbers as a user counts -/

namespace Command

/-- A number counted from one is read as one less, and zero is taken for one. -/
theorem readOrdinal?_toString {n : Nat} (h : n ≤ maxUnsigned) :
    readOrdinal? (toString n).toList = some (n - 1) := by
  have digits : (toString n).toList = Nat.toDigits 10 n := Nat.toList_repr
  rw [readOrdinal?, digits, readUnsigned?_toDigits h]
  rfl

/-- **A line and a column with a colon between them are read back.** -/
theorem readPosition?_word {line column : Nat} (hline : line ≤ maxUnsigned)
    (hcolumn : column ≤ maxUnsigned) :
    readPosition? (toString line ++ ":" ++ toString column).toList =
      some ⟨line - 1, column - 1⟩ := by
  have digits (n : Nat) : ∀ c ∈ (toString n).toList, isDigit c = true := by
    have written : (toString n).toList = Nat.toDigits 10 n := Nat.toList_repr
    rw [written]
    exact fun c => isDigit_of_mem_toDigits
  have noColon : ':' ∉ (toString line).toList := fun h => absurd (digits line _ h) (by decide)
  have kept (n : Nat) : trim (toString n).toList = (toString n).toList :=
    trim_of_not_blank fun c hc => isBlank_of_isDigit (digits n c hc)
  have cut : splitFirst? ':' (toString line ++ ":" ++ toString column).toList =
      some ((toString line).toList, (toString column).toList) := by
    rw [String.toList_append, String.toList_append, List.append_assoc]
    exact splitFirst?_append noColon _
  rw [readPosition?, cut]
  simp only [Option.bind_eq_bind, Option.bind_some, kept, readOrdinal?_toString hline,
    readOrdinal?_toString hcolumn]

end Command

namespace Arguments

open Command (Choice Name)

variable {level : Level} {given settled : Given} {choice : Choice} {value file : Token}
variable {rest : List Token} {behind options : List (Choice × Token)}

/-! ### One option -/

/-- An option with a value that it can have as a word of its own; a switch has none. -/
structure Fits (option : Choice × Token) : Prop where
  accepts : option.1.accepts option.2 = true
  value : option.1.wantsValue = true → canBeValue option.1 option.2 = true
  switch : option.1.wantsValue = false → option.2 = []

/-- A word that does not begin with a dash can be the value of any option. -/
theorem canBeValue_of_head? {word : Token} (h : word.head? ≠ some '-') (choice : Choice) :
    canBeValue choice word = true := by
  have notShort : isShort word = false := by
    rw [isShort, beq_eq_false_iff_ne.mpr h, Bool.false_and, Bool.false_and]
  have notLong : Token.isLong word = false := by
    cases word with
    | nil => rfl
    | cons c rest =>
      have different : ('-' == c) = false :=
        beq_eq_false_iff_ne.mpr fun same => h (congrArg some same.symm)
      show ('-' == c && ['-'].isPrefixOf rest) = false
      rw [different, Bool.false_and]
  rw [canBeValue, notShort, notLong]
  rfl

/-- No number begins with a dash. -/
theorem head?_of_readOrdinal? {word : Token} (h : (Command.readOrdinal? word).isSome = true) :
    word.head? ≠ some '-' := by
  intro dash
  obtain ⟨rest, rfl⟩ := List.head?_eq_some_iff.mp dash
  contradiction

/-- The words for an option and its value. -/
def optionWords (option : Choice × Token) : List Token :=
  option.1.long.toList :: if option.1.wantsValue then [option.2] else []

theorem find?_long (h : choice ∈ level.choices) :
    level.choices.find? (·.long.toList == choice.long.toList) = some choice := by
  have found : ∀ choice ∈ level.choices,
      level.choices.find? (·.long.toList == choice.long.toList) = some choice := by
    cases level with
    | outer => decide
    | inner name => cases name <;> decide
  exact found choice h

/-- How options are written: with two dashes and no equals sign, and unlike the words that
ask for help or for the version. -/
theorem long_spelling (choice : Choice) :
    Token.isLong choice.long.toList = true ∧ choice.long.toList ≠ "--".toList ∧
      splitFirst? '=' choice.long.toList = none ∧ choice.long.toList ≠ "--help".toList ∧
      choice.long.toList ≠ "--version".toList := by
  cases choice with
  | flag key => cases key <;> decide
  | _ => decide

theorem readLong_eq (h : choice ∈ level.choices) :
    readLong level given choice.long.toList =
      if choice.wantsValue then
        match given.settle? with
        | none => .error .refused
        | some given => .ok (given, .value choice)
      else
        match given.add? choice [] with
        | none => .error .refused
        | some given => .ok (given, .anything) := by
  obtain ⟨-, -, whole, noHelp, noVersion⟩ := long_spelling choice
  simp only [readLong, whole, Option.elim_none, decide_eq_false noHelp,
    decide_eq_false noVersion, Bool.false_and, find?_long h]
  cases choice.wantsValue <;> rfl

/-! ### One word -/

theorem readLevel_long {word : Token} (notDashes : word ≠ "--".toList)
    (long : Token.isLong word = true) :
    readLevel level given .anything (word :: rest) =
      match readLong level given word with
      | .error ending => ending
      | .ok (given, expecting) => readLevel level given expecting rest := by
  rw [readLevel.eq_def]
  exact (if_neg notDashes).trans (if_pos long)

theorem readLevel_value (can : canBeValue choice value = true) :
    readLevel level given (.value choice) (value :: rest) =
      readLevel level { given with held := some (choice, value) } .anything rest := by
  rw [readLevel.eq_def]
  dsimp only
  rw [can]
  rfl

/-- After two dashes, a word that is not empty is the file. -/
theorem readLevel_file (wants : level.wantsFile = true) (nonempty : file ≠ [])
    (settles : given.settle? = some settled) (noFile : given.file = none) :
    readLevel level given .anything ["--".toList, file] =
      .done { settled with file := some file } := by
  have taken : readFile? level given file = some { settled with file := some file } := by
    rw [readFile?, wants, noFile, settles, List.isEmpty_eq_false_iff.mpr nonempty]
    rfl
  have settled_held : settled.held = none := by
    rw [Given.settle?] at settles
    split at settles
    next h => rwa [← Option.some.inj settles]
    next =>
      split at settles
      · contradiction
      · rw [← Option.some.inj settles]
  rw [readLevel.eq_def]
  dsimp only
  rw [if_pos rfl, readLevel.eq_def]
  dsimp only
  rw [taken]
  dsimp only
  rw [readLevel.eq_def, Given.settle?, settled_held]

/-- What has been read on a level before its file, once what is held is looked at. -/
def Has (given : Given) (behind : List (Choice × Token)) : Prop :=
  given.settle? = some { choices := behind } ∧ given.file = none

theorem has_choices (behind : List (Choice × Token)) : Has { choices := behind } behind :=
  ⟨rfl, rfl⟩

/-- An option that was not given before and accepts its value can be held. -/
theorem has_held (fresh : choice ∉ behind.map Prod.fst) (accepts : choice.accepts value = true) :
    Has { choices := behind, held := some (choice, value) } ((choice, value) :: behind) := by
  have missing : behind.any (·.1 == choice) = false := by
    rw [List.any_eq_false]
    intro option hoption same
    exact fresh (List.mem_map.mpr ⟨option, hoption, beq_iff_eq.mp same⟩)
  refine ⟨?_, rfl⟩
  rw [Given.settle?]
  simp only [Given.has, missing, accepts, Bool.not_true, Bool.or_false]
  rfl

/-- **One option is read**, and then the rest of the words. -/
theorem exists_readLevel_option {option : Choice × Token} (has : Has given behind)
    (member : option.1 ∈ level.choices) (fits : Fits option)
    (fresh : option.1 ∉ behind.map Prod.fst) (rest : List Token) :
    ∃ given', Has given' (option :: behind) ∧
      readLevel level given .anything (optionWords option ++ rest) =
        readLevel level given' .anything rest := by
  obtain ⟨choice, value⟩ := option
  obtain ⟨long, notDashes, -⟩ := long_spelling choice
  have held := has_held fresh fits.accepts
  rw [optionWords, List.cons_append, readLevel_long notDashes long, readLong_eq member]
  cases wants : choice.wantsValue with
  | true =>
    rw [if_pos rfl, if_pos rfl, has.1]
    exact ⟨_, held, readLevel_value (fits.value wants)⟩
  | false =>
    have nothing : value = [] := fits.switch wants
    subst nothing
    have added : given.add? choice [] = some { choices := (choice, []) :: behind } := by
      rw [Given.add?, has.1, Option.bind_some]
      exact held.1
    rw [if_neg Bool.false_ne_true, if_neg Bool.false_ne_true, added]
    exact ⟨_, has_choices _, rfl⟩

/-! ### All of them -/

theorem readLevel_options (wants : level.wantsFile = true) (nonempty : file ≠ [])
    (has : Has given behind) (member : ∀ option ∈ options, option.1 ∈ level.choices)
    (fits : ∀ option ∈ options, Fits option)
    (distinct : ((options.reverse ++ behind).map Prod.fst).Nodup) :
    readLevel level given .anything (options.flatMap optionWords ++ ["--".toList, file]) =
      .done { choices := options.reverse ++ behind, file := some file } := by
  induction options generalizing given behind with
  | nil => exact readLevel_file wants nonempty has.1 has.2
  | cons option options ih =>
    rw [List.reverse_cons, List.append_assoc, List.singleton_append] at distinct ⊢
    have fresh : option.1 ∉ behind.map Prod.fst := by
      rw [List.map_append, List.map_cons] at distinct
      exact (List.nodup_cons.mp (List.nodup_append.mp distinct).2.1).1
    obtain ⟨given', has', step⟩ := exists_readLevel_option has
      (member option List.mem_cons_self) (fits option List.mem_cons_self) fresh
      (options.flatMap optionWords ++ ["--".toList, file])
    rw [List.flatMap_cons, List.append_assoc, step]
    exact ih has' (fun o ho => member o (List.mem_cons_of_mem _ ho))
      (fun o ho => fits o (List.mem_cons_of_mem _ ho)) distinct

/-- **Options and a file are read back.** -/
theorem readLevel_words (wants : level.wantsFile = true) (nonempty : file ≠ [])
    (member : ∀ option ∈ options, option.1 ∈ level.choices)
    (fits : ∀ option ∈ options, Fits option) (distinct : (options.map Prod.fst).Nodup) :
    readLevel level {} .anything (options.flatMap optionWords ++ ["--".toList, file]) =
      .done { choices := options.reverse, file := some file } := by
  have turned : ((options.reverse ++ []).map Prod.fst).Nodup := by
    rwa [List.append_nil, List.map_reverse, List.nodup_reverse]
  rw [readLevel_options wants nonempty (has_choices []) member fits turned, List.append_nil]

/-- **A command line is read back.** -/
theorem read_words {name : Name} {command : Command} {words : List String}
    (wants : name.wantsFile = true) (nonempty : file ≠ [])
    (member : ∀ option ∈ options, option.1 ∈ (Level.inner name).choices)
    (fits : ∀ option ∈ options, Fits option) (distinct : (options.map Prod.fst).Nodup)
    (chosen : command? name { choices := options.reverse, file := some file } = some command)
    (hwords : words.map String.toList =
      name.word.toList :: (options.flatMap optionWords ++ ["--".toList, file])) :
    read words = .run (flags { choices := options.reverse, file := some file }) command := by
  have outer (rest : List Token) : readLevel .outer {} .anything (name.word.toList :: rest) =
      .command name {} rest := by
    cases name <;> rfl
  have nothing (later : Flags) : (flags {}).union later = later := by
    show Flags.union {} later = later
    simp [Flags.union]
  have inner : readLevel (.inner name) {} .anything
      (options.flatMap optionWords ++ ["--".toList, file]) =
        .done { choices := options.reverse, file := some file } :=
    readLevel_words wants nonempty member fits distinct
  rw [read, hwords, outer]
  dsimp only
  rw [inner]
  dsimp only
  rw [chosen]
  exact congrArg (Request.run · command) (nothing _)

end Arguments

end LiveCoding
