import LiveCoding.Files.Basic
import LiveCoding.Settings.Token
import LiveCoding.Text.Rows

/-!
# Stored settings

Flags are kept in a text file, one flag a row.  Rows that are blank or begin with
a number sign are comments.

## Main Definitions

* `Flags.written`, `Flags.ofText`: the text of flags, and the flags of a text.
* `Store.load`, `Store.save`, `Store.clear`: the file.
* `Store.globalPath`, `Store.localPath`: where the files are.
-/

namespace LiveCoding

namespace Flags

/-- The comment over saved flags. -/
def header : String :=
  "# sclink defaults (saved with \x60sclink config --save\x60)"

/-- The row of a flag with a value, if it is given. -/
def valueRow (key : Key) : Option (List Char) → List (List Char)
  | none => []
  | some value => [key.name.toList ++ ' ' :: value]

/-- The row of a switch, if it is on. -/
def switchRow (name : String) (on : Bool) : List (List Char) :=
  if on then [name.toList] else []

/-- The rows that flags are saved as. -/
def rows (flags : Flags) : List (List Char) :=
  let quoted (value : String) := Token.quote value.toList
  let numeral (n : Int) := (toString n).toList
  header.toList ::
    valueRow .sclangPath (flags.sclangPath.map quoted) ++
    valueRow .oscHost (flags.oscHost.map quoted) ++
    valueRow .oscPort (flags.oscPort.map numeral) ++
    valueRow .languageServerPort (flags.languageServerPort.map numeral) ++
    switchRow noLanguageServerName flags.noLanguageServer ++
    switchRow quietName flags.quiet

/-- The text that flags are saved as. -/
def written (flags : Flags) : List Char :=
  flags.rows.flatMap (· ++ ['\n'])

/-- A row that says something. -/
def isTelling (row : List Char) : Bool :=
  !row.isEmpty && row.head? != some '#'

/-- The tokens of a text. -/
def tokens (text : List Char) : List Token :=
  (((LiveCoding.rows text).map trim).filter isTelling).flatMap Token.split

/-- The flags of a text. -/
def ofText (text : List Char) : Flags :=
  ofTokens (tokens text)

end Flags

namespace Store

/-- What can go wrong with the file. -/
inductive Error where
  | read (path : Path) (fault : Fault)
  | makeDirectory (path : Path) (fault : Fault)
  | write (path : Path) (fault : Fault)
  | remove (path : Path) (fault : Fault)
deriving DecidableEq, Repr

namespace Error

/-- The wording of what was tried. -/
def message : Error → String
  | .read path _ => "Failed to read config " ++ path.display
  | .makeDirectory path _ => "Failed to create config dir " ++ path.display
  | .write path _ => "Failed to write config " ++ path.display
  | .remove path _ => "Failed to remove " ++ path.display

/-- Why it failed. -/
def fault : Error → Fault
  | .read _ fault | .makeDirectory _ fault | .write _ fault | .remove _ fault => fault

end Error

/-- The flags in a file.  A file that is not there gives none. -/
def load (files : Files) (path : Path) : Except Error Flags :=
  if !files.contains path then .ok {}
  else
    match files.read path with
    | .error fault => .error (.read path fault)
    | .ok bytes =>
      match Utf8.decode bytes with
      | .error _ => .error (.read path .settingsNotText)
      | .ok text => .ok (Flags.ofText text)

/-- Makes the directory that a file belongs into. -/
def makeRoom (files : Files) (path : Path) : Files × Except Error Unit :=
  match path.parent? with
  | none => (files, .ok ())
  | some parent =>
    match files.makeDirectories parent with
    | (files, .ok ()) => (files, .ok ())
    | (files, .error fault) => (files, .error (.makeDirectory parent fault))

/-- Saves flags in a file, in place of what it holds. -/
def save (files : Files) (path : Path) (flags : Flags) : Files × Except Error Unit :=
  match makeRoom files path with
  | (files, .error error) => (files, .error error)
  | (files, .ok ()) =>
    match files.write path (Utf8.encode flags.written) with
    | .ok files => (files, .ok ())
    | .error fault => (files, .error (.write path fault))

/-- Removes a file if it is there. -/
def clear (files : Files) (path : Path) : Files × Except Error Unit :=
  if !files.contains path then (files, .ok ())
  else
    match files.removeFile path with
    | .ok files => (files, .ok ())
    | .error fault => (files, .error (.remove path fault))

/-- What the user's surroundings say about where files belong. -/
structure Home where
  /-- The directory for settings of all programs. -/
  settings : Option String := none
  /-- The directory of the user. -/
  user : Option String := none
deriving DecidableEq, Repr

/-- The file that overrides the global one in the working directory. -/
def localPath : Path :=
  .ofText ".sclinkrc"

/-- The file with the user's defaults. -/
def globalPath (home : Home) : Path :=
  let below (base : Path) := (base.join (.ofText "sclink")).join (.ofText "config")
  match home.settings, home.user with
  | some directory, _ => below (.ofText directory)
  | none, some directory => below ((Path.ofText directory).join (.ofText ".config"))
  | none, none => localPath

end Store

end LiveCoding
