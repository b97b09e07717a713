import LiveCoding.Document.Word
import LiveCoding.Files.Path
import LiveCoding.Text.Blank
import LiveCoding.Text.Rows

/-!
# Help

The interpreter knows where the help file of a class lies, so it is asked with a
short script.  Where it does not know, the class reference on the net has to do.

## Main Definitions

* `Help.isSymbol`: the names that may be put into a script.
* `Help.script`: the question to the interpreter.
* `Help.answer?`: the file that an answer names.
* `Help.Target`, `Help.classify`: where help can be read.
-/

namespace LiveCoding

namespace Help

/-- A name that is safe to put into a script. -/
def isSymbol (name : String) : Bool :=
  Word.isName name.toList

/-- The page of the class reference. -/
def onlinePage (symbol : String) : String :=
  s!"https://doc.sccode.org/Classes/{symbol}.html"

/-- What the interpreter prints if it knows of no help. -/
def noHelp : String := "NOHELP"

/-- The script that prints where the help for a symbol lies. -/
def script (symbol : String) : String :=
  "var class, helpPath;\n" ++
  s!"class = \"{symbol}\".asSymbol.asClass;\n" ++
  "if (class.notNil) \x7b\n" ++
  "    helpPath = class.help.path;\n" ++
  "\x7d \x7b\n" ++
  s!"    helpPath = Help.findHelpFile(\"{symbol}\");\n" ++
  "\x7d;\n" ++
  "if (helpPath.notNil) \x7b helpPath.postln \x7d \x7b \"" ++ noHelp ++ "\".postln \x7d;\n" ++
  "0.exit;"

/-- Whether a text occurs in another. -/
def occursIn (part : List Char) : List Char → Bool
  | [] => part.isEmpty
  | c :: rest => part.isPrefixOf (c :: rest) || occursIn part rest

/-- The path that an interpreter printed.  It greets before it answers, so only the
last row counts. -/
def answer? (output : String) : Option String :=
  let text := output.toList
  if occursIn noHelp.toList text then none
  else (rows (trim text)).getLast?.map fun row => String.ofList (trim row)

/-- Where help can be read. -/
inductive Target where
  /-- A page for a browser. -/
  | html (path : Path)
  /-- A file for an editor. -/
  | source (path : Path)
  /-- A page of the class reference. -/
  | online (page : String)
deriving DecidableEq, Repr

namespace Target

/-- Where to look, for the user to read. -/
def display : Target → String
  | .html path | .source path => path.display
  | .online page => page

end Target

/-- The name of a file's kind in lower case, if it is ASCII. -/
def isHtml (extension : Path.Segment) : Bool :=
  let lower := extension.map fun b => if 65 ≤ b && b ≤ 90 then b + 32 else b
  lower == utf8Bytes "html" || lower == utf8Bytes "htm"

/-- The kind of a help file, by its extension in any case. -/
def classify (path : Path) : Target :=
  if (path.extension?.map isHtml).getD false then .html path else .source path

end Help

end LiveCoding
