import LiveCoding.Settings.Flags
import LiveCoding.Text.Blank
import LiveCoding.Text.Numeral
import LiveCoding.Text.Split

/-!
# Flags as tokens

A row of settings is cut into tokens at blanks, and a list of tokens is read as
flags.  A stretch in double quotes is not cut, so a value with blanks in it is
written in quotes.

## Main Definitions

* `Token.split`: the tokens of a row.
* `Token.quote`: a value as a token of a row.
* `Flags.ofTokens`: the flags that tokens give.

## Design Notes

Quotes cannot be escaped: each one turns quoting on or off and vanishes.  A quoted
stretch makes a token even if it is empty.

Tokens that are no flag are passed over, so that a whole command line can be read.
A flag that wants a value takes the next token, unless that one begins with two
dashes.  A value that is no number takes away the port that an earlier flag gave.
-/

namespace LiveCoding

/-- A piece of a row of settings, or an argument on a command line. -/
abbrev Token := List Char

namespace Token

/-- A token that is not empty only because of its quotes is still a token; so the
token in the making is absent, or there with its characters, newest first. -/
def splitFrom (inQuotes : Bool) (token : Option Token) (found : List Token) :
    List Char → List Token
  | [] =>
    match token with
    | none => found.reverse
    | some token => (token.reverse :: found).reverse
  | c :: rest =>
    if c = '"' then splitFrom (!inQuotes) (some (token.getD [])) found rest
    else if isBlank c && !inQuotes then
      match token with
      | none => splitFrom inQuotes none found rest
      | some token => splitFrom inQuotes none (token.reverse :: found) rest
    else splitFrom inQuotes (some (c :: token.getD [])) found rest

/-- The tokens of a row. -/
def split (row : List Char) : List Token :=
  splitFrom false none [] row

/-- A value as it is written in a row: in quotes if it holds a blank. -/
def quote (value : List Char) : List Char :=
  if value.any isBlank then '"' :: value ++ ['"'] else value

/-- Whether a token begins with two dashes. -/
def isLong (token : Token) : Bool :=
  "--".toList.isPrefixOf token

/-- The name of a flag and the value behind an equals sign.  Only a name with two
dashes can have its value there. -/
def nameAndValue (token : Token) : Token × Option Token :=
  match splitFirst? '=' token with
  | some (name, value) => if isLong name then (name, some value) else (token, none)
  | none => (token, none)

end Token

namespace Flags

/-- The flags that want a value. -/
inductive Key where
  | sclangPath
  | oscHost
  | oscPort
  | languageServerPort
deriving DecidableEq, Repr

namespace Key

/-- How a flag is written. -/
def name : Key → String
  | .sclangPath => "--sclang-path"
  | .oscHost => "--osc-host"
  | .oscPort => "--osc-port"
  | .languageServerPort => "--lsp-port"

/-- All flags that want a value. -/
def all : List Key :=
  [.sclangPath, .oscHost, .oscPort, .languageServerPort]

/-- The flag that is written so. -/
def ofName? (name : Token) : Option Key :=
  all.find? fun key => key.name.toList == name

end Key

/-- The switch for the language server. -/
def noLanguageServerName : String := "--no-language-server"

/-- The switch for silence. -/
def quietName : String := "--quiet"

/-- The switch for silence in short. -/
def quietShortName : String := "-q"

/-- Gives a value to a flag. -/
def put (flags : Flags) (key : Key) (value : Token) : Flags :=
  match key with
  | .sclangPath => { flags with sclangPath := some (String.ofList value) }
  | .oscHost => { flags with oscHost := some (String.ofList value) }
  | .oscPort => { flags with oscPort := readSigned? value }
  | .languageServerPort => { flags with languageServerPort := readSigned? value }

/-- The flags given so far, then those of the tokens. -/
def putTokens (flags : Flags) : List Token → Flags
  | [] => flags
  | token :: rest =>
    let (name, value?) := Token.nameAndValue token
    if name = noLanguageServerName.toList then
      putTokens { flags with noLanguageServer := true } rest
    else if name = quietName.toList || name = quietShortName.toList then
      putTokens { flags with quiet := true } rest
    else
      match Key.ofName? name with
      | none => putTokens flags rest
      | some key =>
        match value? with
        | some value => putTokens (flags.put key value) rest
        | none =>
          match rest with
          | [] => flags
          | next :: later =>
            if Token.isLong next then putTokens flags (next :: later)
            else putTokens (flags.put key next) later

/-- The flags that tokens give. -/
def ofTokens (tokens : List Token) : Flags :=
  putTokens {} tokens

end Flags

end LiveCoding
