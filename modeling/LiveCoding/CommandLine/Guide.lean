import LiveCoding.CommandLine.Command

/-!
# Pages of help

A page says what a command does, how it is written, and what its options mean.  The
options of a command and those that every command takes are listed together: by
their place in their own list, and at one place by their letter or name.

## Main Definitions

* `Guide.Topic`: what a page can be about.
* `Guide.page`: the text of a page.
-/

namespace LiveCoding

namespace Guide

/-- What a page can be about. -/
inductive Topic where
  /-- The program with all its commands. -/
  | everything
  | command (name : Command.Name)
  /-- The lookup of help for a class. -/
  | classHelp
deriving DecidableEq, Repr

/-- A line of a list: how something is written and what it means. -/
structure Item where
  written : String
  meaning : String

/-- An option as it is listed. -/
structure Entry where
  /-- Its place in its own list. -/
  place : Nat
  /-- What decides between options at one place. -/
  key : String
  item : Item

/-- How a value is named. -/
def valueName? : Command.Choice → Option String
  | .flag .sclangPath => some "PATH"
  | .flag .oscHost => some "HOST"
  | .flag .oscPort | .flag .languageServerPort => some "PORT"
  | .line => some "LINE"
  | .column => some "COLUMN"
  | .selectionEnd => some "LINE:COLUMN"
  | _ => none

/-- What an option means. -/
def meaning : Command.Choice → String
  | .flag .sclangPath => "Path to the sclang executable"
  | .flag .oscHost => "Host sclang listens on for OSC (also used for the language server)"
  | .flag .oscPort => "sclang's OSC port"
  | .flag .languageServerPort => "Language server TCP port"
  | .noLanguageServer => "Never connect to the language server"
  | .quiet => "Do not echo evaluated code or print status"
  | .line => "Cursor line (1-based) [default: 1]"
  | .column => "Cursor column in characters (1-based) [default: 1]"
  | .selectionEnd => "End of a selection starting at the cursor, as LINE:COLUMN"
  | .watch => "Evaluate again every time the file is saved"
  | .json => "Print JSON instead of the code"
  | .launch => "Launch sclang with the language server if it is not reachable"
  | .save => "Save the global flags given on this command line as defaults"
  | .clear => "Remove saved defaults"
  | .display => "Print the effective configuration"

/-- What a command does. -/
def purpose : Command.Name → String
  | .evaluate => "Evaluate the selection, the enclosing block, or the cursor's line"
  | .evaluateFile => "Evaluate a whole file"
  | .bootServer => "Boot the default server"
  | .quitServer => "Quit the default server"
  | .stopSound => "Free every node on the default server"
  | .locate => "Print the block that would be evaluated at the cursor"
  | .languageServer => "Bridge stdio to the language server"
  | .status => "Show the connection indicator"
  | .settings => "Manage saved defaults"

/-- What the lookup of class help does. -/
def classHelpPurpose : String :=
  "Find help for the class under the cursor or a named class"

/-- What the program does. -/
def programPurpose : String :=
  "Send SuperCollider code from any editor to a running sclang over OSC"

/-- An option that is written with a letter or without. -/
def entry (place : Nat) (letter : Option Char) (name : String) (value? : Option String)
    (meaning : String) : Entry where
  place
  key := letter.elim name fun c => String.ofList [c, '0']
  item :=
    { written := letter.elim "    " (fun c => String.ofList ['-', c, ',', ' ']) ++ "--" ++ name ++
        value?.elim "" fun value => s!" <{value}>"
      meaning }

/-- An option of the table at its place. -/
def choiceEntry (choice : Command.Choice) (place : Nat) : Entry :=
  entry place choice.short? (String.ofList (choice.long.toList.drop 2)) (valueName? choice)
    (meaning choice)

/-- A place behind all others. -/
def lastPlace : Nat := 999

/-- The options of a topic's own. -/
def ownEntries : Topic → List Entry
  | .everything => [⟨lastPlace, "v1", ⟨"-V, --version", "Print version"⟩⟩]
  | .command name => (Command.Choice.ofCommand name).zipIdx.map fun (choice, i) =>
    choiceEntry choice i
  | .classHelp =>
    [choiceEntry .line 0, choiceEntry .column 1,
      entry 2 none "symbol" (some "SYMBOL") "Class name to look up instead of reading a file",
      entry 3 none "open" none "Open the help with the system handler"]

/-- Whether one option is listed before another. -/
def listedBefore (a b : Entry) : Bool :=
  a.place < b.place || (a.place == b.place && decide (a.key ≤ b.key))

/-- The options that every command takes, as far as a topic's page lists them: the
page about class help does not. -/
def sharedEntries : Topic → List Entry
  | .classHelp => []
  | .everything | .command _ =>
    Command.Choice.shared.zipIdx.map fun (choice, i) => choiceEntry choice i

/-- The options of a topic in the order of the list. -/
def options (topic : Topic) : List Item :=
  let help : Entry := ⟨lastPlace, "h0", ⟨"-h, --help", "Print help"⟩⟩
  ((ownEntries topic ++ sharedEntries topic ++ [help]).mergeSort listedBefore).map Entry.item

/-- The commands in the order of the list. -/
def commands : List Item :=
  let items := Command.Name.all.map fun name => Item.mk name.word (purpose name)
  items.take 5 ++ [⟨"help", classHelpPurpose⟩] ++ items.drop 5 ++
    [⟨"help", "Print this message or the help of the given subcommand(s)"⟩]

/-- A headed list whose meanings stand in one column. -/
def listing (heading : String) (items : List Item) : String :=
  let width := (items.map fun item => item.written.length).foldl max 0
  let line (item : Item) :=
    "  " ++ item.written ++ String.ofList (List.replicate (width - item.written.length + 2) ' ') ++
      item.meaning ++ "\n"
  s!"\n{heading}:\n" ++ String.join (items.map line)

/-- The heading of a page. -/
def opening (purpose usage : String) : String :=
  s!"{purpose}\n\nUsage: sclink {usage}\n"

/-- The text of a page. -/
def page (topic : Topic) : String :=
  match topic with
  | .everything =>
    opening programPurpose "[OPTIONS] <COMMAND>" ++ listing "Commands" commands ++
      listing "Options" (options topic)
  | .command name =>
    let file := if name.wantsFile then " <FILE>" else ""
    opening (purpose name) s!"{name.word} [OPTIONS]{file}" ++
      (if name.wantsFile then listing "Arguments" [⟨"<FILE>", "Source file"⟩] else "") ++
      listing "Options" (options topic)
  | .classHelp =>
    opening classHelpPurpose "help [OPTIONS] [FILE]" ++
      listing "Arguments" [⟨"[FILE]", "Source file to take the symbol from"⟩] ++
      listing "Options" (options topic)

end Guide

end LiveCoding
