import LiveCoding.CommandLine.Guide

/-!
# Arguments

The words of a command line are read in two levels.  The options that every
command takes may stand before or after the word for the command; all else stands
after it.  On one level an option may be given once.

## Main Definitions

* `Arguments.Given`: what was read on one level.
* `Arguments.readLevel`: reads one level.
* `Arguments.read`: reads a command line.

## Design Notes

An option that waits for its value takes the next word, unless that word looks like
an option; a port alone may be a negative number.  After two dashes every word is a
file.  The version is asked for before the word for the command, and a page of help
on either level; both are answered as soon as they are read, so that only a mistake
further left is reported instead.

A value that is a word of its own is not looked at before the next option or file on
its level, or the end of the level.  So a mistake in the value in front of the word
for a command comes after all that the words behind that one ask for.
-/

namespace LiveCoding

namespace Arguments

/-- What was read on one level. -/
structure Given where
  /-- Options and their values, latest first; a switch has an empty value. -/
  choices : List (Command.Choice × Token) := []
  /-- An option and its value, which has not been looked at. -/
  held : Option (Command.Choice × Token) := none
  file : Option Token := none
deriving DecidableEq, Repr, Inhabited

namespace Given

/-- Whether an option was given. -/
def has (given : Given) (choice : Command.Choice) : Bool :=
  given.choices.any (·.1 == choice)

/-- The value of an option. -/
def value? (given : Given) (choice : Command.Choice) : Option Token :=
  given.choices.lookup choice

/-- Looks at the value that is held: the option must not have been given before, and
has to accept it. -/
def settle? (given : Given) : Option Given :=
  match given.held with
  | none => some given
  | some (choice, value) =>
    if given.has choice || !choice.accepts value then none
    else some { given with choices := (choice, value) :: given.choices, held := none }

/-- Adds an option and looks at its value. -/
def add? (given : Given) (choice : Command.Choice) (value : Token) : Option Given :=
  given.settle?.bind fun given => settle? { given with held := some (choice, value) }

end Given

/-- What a level may hold. -/
inductive Level where
  /-- Before the word for the command. -/
  | outer
  /-- After it. -/
  | inner (name : Command.Name)
deriving DecidableEq, Repr

namespace Level

/-- The options of a level. -/
def choices : Level → List Command.Choice
  | .outer => Command.Choice.shared
  | .inner name => Command.Choice.ofCommand name ++ Command.Choice.shared

/-- Whether a file may stand on a level. -/
def wantsFile : Level → Bool
  | .outer => false
  | .inner name => name.wantsFile

end Level

/-- How the reading of a level ends. -/
inductive Ending where
  /-- Something is wrong. -/
  | refused
  /-- The version is asked for. -/
  | version
  /-- A page of help is asked for. -/
  | guide (level : Level)
  /-- The word for a command, and the words behind it. -/
  | command (name : Command.Name) (given : Given) (rest : List Token)
  /-- The word for help, and the words behind it. -/
  | help (rest : List Token)
  /-- The end of the words. -/
  | done (given : Given)
deriving DecidableEq, Repr

/-- The ending, unless what is held was a mistake. -/
def Given.endingIn (given : Given) (ending : Ending) : Ending :=
  if given.settle?.isSome then ending else .refused

/-- The effect of single letters behind one dash. -/
def readLetters (level : Level) (given : Given) : List Char → Except Ending Given
  | [] => .ok given
  | letter :: rest =>
    if letter = 'h' then .error (given.endingIn (.guide level))
    else if letter = 'V' && level == .outer then .error (given.endingIn .version)
    else
      match level.choices.find? (·.short? == some letter) with
      | none => .error .refused
      | some choice =>
        match given.add? choice [] with
        | none => .error .refused
        | some given => readLetters level given rest

/-- A word that stands for a file. -/
def readFile? (level : Level) (given : Given) (word : Token) : Option Given :=
  if level.wantsFile && given.file.isNone && !word.isEmpty then
    given.settle?.map fun given => { given with file := some word }
  else none

/-- What the next word is for. -/
inductive Expecting where
  | anything
  /-- The value of an option. -/
  | value (choice : Command.Choice)
  /-- A file, since two dashes went before. -/
  | file
deriving DecidableEq, Repr

/-- Whether a word is a letter behind one dash, or several. -/
def isShort (word : Token) : Bool :=
  word.head? == some '-' && word.length > 1 && !Token.isLong word

/-- Whether the text is written like a number: digits with a full stop among or behind
them, if any, and then a power of ten, if any. -/
def isNumber (text : Token) : Bool :=
  let mantissa := text.takeWhile fun c => c != 'e' && c != 'E'
  let (whole, places) := (splitFirst? '.' mantissa).getD (mantissa, [])
  let behind := text.drop mantissa.length
  !whole.isEmpty && (whole ++ places ++ behind.tail).all Char.isDigit && behind != ['e'] &&
    behind != ['E']

/-- Whether a word can be the value of an option that waits for one. -/
def canBeValue (choice : Command.Choice) (word : Token) : Bool :=
  !Token.isLong word && (!isShort word || (choice.isPort && isNumber word.tail))

/-- What a word with two dashes in front asks for. -/
def readLong (level : Level) (given : Given) (word : Token) :
    Except Ending (Given × Expecting) :=
  let (name, value?) := (splitFirst? '=' word).elim (word, none) fun (n, v) => (n, some v)
  if name = "--help".toList && value?.isNone then .error (given.endingIn (.guide level))
  else if name = "--version".toList && value?.isNone && level == .outer then
    .error (given.endingIn .version)
  else
    match level.choices.find? (·.long.toList == name) with
    | none => .error .refused
    | some choice =>
      match choice.wantsValue, value? with
      | true, none =>
        match given.settle? with
        | none => .error .refused
        | some given => .ok (given, .value choice)
      | false, some _ => .error .refused
      | _, _ =>
        match given.add? choice (value?.getD []) with
        | none => .error .refused
        | some given => .ok (given, .anything)

/-- The word that asks for a page of help. -/
def helpWord : String := "help"

/-- Reads a level. -/
def readLevel (level : Level) (given : Given) (expecting : Expecting) : List Token → Ending
  | [] =>
    match expecting, given.settle? with
    | .value _, _ | _, none => .refused
    | _, some given => .done given
  | word :: rest =>
    match expecting with
    | .file =>
      match readFile? level given word with
      | none => .refused
      | some given => readLevel level given .file rest
    | .value choice =>
      if !canBeValue choice word then .refused
      else readLevel level { given with held := some (choice, word) } .anything rest
    | .anything =>
      if word = "--".toList then readLevel level given .file rest
      else if Token.isLong word then
        match readLong level given word with
        | .error ending => ending
        | .ok (given, expecting) => readLevel level given expecting rest
      else if isShort word then
        match readLetters level given word.tail with
        | .error ending => ending
        | .ok given => readLevel level given .anything rest
      else
        match level, Command.Name.ofWord? word with
        | .outer, some name => .command name given rest
        | .outer, none => if word = helpWord.toList then .help rest else .refused
        | .inner _, _ =>
          match readFile? level given word with
          | none => .refused
          | some given => readLevel level given .anything rest

/-- What a command line asks for. -/
inductive Request where
  | run (flags : Flags) (command : Command)
  | version
  /-- A page of help. -/
  | guide (topic : Guide.Topic)
  /-- Nothing that makes sense. -/
  | refused
deriving DecidableEq, Repr

/-- The flags of a level. -/
def flags (given : Given) : Flags :=
  let values := Flags.Key.all.foldl (fun (flags : Flags) key =>
    (given.value? (.flag key)).elim flags (flags.put key)) {}
  { values with
    noLanguageServer := given.has .noLanguageServer
    quiet := given.has .quiet }

/-- The position of the cursor; it is at the start unless options say otherwise. -/
def cursor (given : Given) : Position :=
  let ordinal (choice : Command.Choice) :=
    ((given.value? choice).bind Command.readOrdinal?).getD 0
  ⟨ordinal .line, ordinal .column⟩

/-- The command that was chosen, unless its file is missing. -/
def command? (name : Command.Name) (given : Given) : Option Command :=
  let file? := given.file.map String.ofList
  match name with
  | .evaluate => file?.map fun file =>
    .evaluate file (cursor given) ((given.value? .selectionEnd).bind Command.readPosition?)
  | .evaluateFile => file?.map (.evaluateFile · (given.has .watch))
  | .locate => file?.map (.locate · (cursor given) (given.has .json))
  | .bootServer => some .bootServer
  | .quitServer => some .quitServer
  | .stopSound => some .stopSound
  | .languageServer => some (.languageServer (given.has .launch))
  | .status => some .status
  | .settings => some (.settings (given.has .save) (given.has .clear) (given.has .display))

/-- What the word for help and the words behind it ask for. -/
def guideFor : List Token → Request
  | [] => .guide .everything
  | [word] =>
    match Command.Name.ofWord? word with
    | some name => .guide (.command name)
    | none => if word = helpWord.toList then .guide .classHelp else .refused
  | _ => .refused

/-- The request that an early ending of a level makes. -/
def early : Ending → Request
  | .version => .version
  | .guide .outer => .guide .everything
  | .guide (.inner name) => .guide (.command name)
  | .help rest => guideFor rest
  | .refused | .done _ | .command _ _ _ => .refused

/-- Reads a command line. -/
def read (words : List String) : Request :=
  match readLevel .outer {} .anything (words.map String.toList) with
  | .command name outer rest =>
    match readLevel (.inner name) {} .anything rest with
    | .done inner =>
      match outer.settle?, command? name inner with
      | some outer, some command => .run ((flags outer).union (flags inner)) command
      | _, _ => .refused
    | ending => early ending
  | ending => early ending

end Arguments

end LiveCoding
