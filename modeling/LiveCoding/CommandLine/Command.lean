import LiveCoding.Document.Position
import LiveCoding.Settings.Token

/-!
# Commands

What a user can ask for, and the options that say how.

## Main Definitions

* `Command`: a request with everything it needs.
* `Command.Name`: the words that choose one.
* `Command.Choice`: the options, with `Choice.accepts` for their values.
* `Command.cursorOf`: lines and columns as a user counts them.

## Design Notes

Users count lines and columns from one, and zero is taken for one.
-/

namespace LiveCoding

/-- A request with everything it needs. -/
inductive Command where
  /-- Sends the code at a cursor, or from there to the end of a selection. -/
  | evaluate (file : String) (cursor : Position) (selectionEnd : Option Position)
  /-- Sends a whole file, now and after every save if `watch` says so. -/
  | evaluateFile (file : String) (watch : Bool)
  | bootServer
  | quitServer
  | stopSound
  /-- Prints the block at a cursor. -/
  | locate (file : String) (cursor : Position) (json : Bool)
  /-- Bridges the standard streams to the language server. -/
  | languageServer (mayLaunch : Bool)
  | status
  /-- Manages the stored settings. -/
  | settings (save clear display : Bool)
deriving DecidableEq, Repr

namespace Command

/-- The words that choose a command. -/
inductive Name where
  | evaluate
  | evaluateFile
  | bootServer
  | quitServer
  | stopSound
  | locate
  | languageServer
  | status
  | settings
deriving DecidableEq, Repr

namespace Name

/-- All commands. -/
def all : List Name :=
  [.evaluate, .evaluateFile, .bootServer, .quitServer, .stopSound, .locate, .languageServer,
    .status, .settings]

/-- The word for a command. -/
def word : Name → String
  | .evaluate => "eval"
  | .evaluateFile => "eval-file"
  | .bootServer => "boot"
  | .quitServer => "quit"
  | .stopSound => "stop"
  | .locate => "locate"
  | .languageServer => "lsp"
  | .status => "status"
  | .settings => "config"

/-- The command for a word. -/
def ofWord? (word : Token) : Option Name :=
  all.find? fun name => name.word.toList == word

/-- Whether a command wants a file. -/
def wantsFile : Name → Bool
  | .evaluate | .evaluateFile | .locate => true
  | _ => false

end Name

/-- The options of all commands. -/
inductive Choice where
  /-- A flag that any command takes, with a value. -/
  | flag (key : Flags.Key)
  | noLanguageServer
  | quiet
  | line
  | column
  | selectionEnd
  | watch
  | json
  | launch
  | save
  | clear
  | display
deriving DecidableEq, Repr

namespace Choice

/-- The options that every command takes. -/
def shared : List Choice :=
  Flags.Key.all.map .flag ++ [.noLanguageServer, .quiet]

/-- The options that a command takes besides. -/
def ofCommand : Name → List Choice
  | .evaluate => [.line, .column, .selectionEnd]
  | .evaluateFile => [.watch]
  | .locate => [.line, .column, .json]
  | .languageServer => [.launch]
  | .settings => [.save, .clear, .display]
  | .bootServer | .quitServer | .stopSound | .status => []

/-- How an option is written. -/
def long : Choice → String
  | .flag key => key.name
  | .noLanguageServer => Flags.noLanguageServerName
  | .quiet => Flags.quietName
  | .line => "--line"
  | .column => "--column"
  | .selectionEnd => "--to"
  | .watch => "--watch"
  | .json => "--json"
  | .launch => "--launch"
  | .save => "--save"
  | .clear => "--clear"
  | .display => "--show"

/-- The letter for an option, if it has one. -/
def short? : Choice → Option Char
  | .quiet => some 'q'
  | .watch => some 'w'
  | _ => none

/-- Whether an option is a port. -/
def isPort : Choice → Bool
  | .flag .oscPort | .flag .languageServerPort => true
  | _ => false

/-- Whether an option wants a value. -/
def wantsValue : Choice → Bool
  | .flag _ | .line | .column | .selectionEnd => true
  | _ => false

end Choice

/-- A number as a user counts, from one. -/
def readOrdinal? (text : List Char) : Option Nat :=
  (readUnsigned? text).map (· - 1)

/-- A line and a column as a user counts, with a colon between them. -/
def readPosition? (text : List Char) : Option Position := do
  let (line, column) ← splitFirst? ':' text
  some ⟨← readOrdinal? (trim line), ← readOrdinal? (trim column)⟩

/-- Whether an option can have the value. -/
def Choice.accepts (choice : Choice) (value : Token) : Bool :=
  match choice with
  | .flag .sclangPath => !value.isEmpty
  | .flag .oscPort | .flag .languageServerPort => (readSigned? value).isSome
  | .line | .column => (readOrdinal? value).isSome
  | .selectionEnd => (readPosition? value).isSome
  | _ => true

end Command

end LiveCoding
