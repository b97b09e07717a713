import LiveCoding.Text.Printable
import LiveCoding.Text.Extending

/-!
# Quoted text in messages

A message that names a piece of foreign text shows it between quotes, with
escapes for whatever a reader of the message could not see or would take for the
closing quote.

## Main Definitions

* `escaped`: one character as it stands between a kind of quotes.
* `quotedText`: a text between double quotes.
* `quotedChar`: a character between single quotes.
-/

namespace LiveCoding

/-- The digits of a number to base 16, in lower case. -/
def hexDigits (n : Nat) : List Char :=
  Nat.toDigits 16 n

/-- An escape that gives the number of the character. -/
def numberEscape (c : Char) : List Char :=
  ['\\', 'u', '\x7b'] ++ hexDigits c.toNat ++ ['\x7d']

/-- One character as it stands between the given quotes: the quote itself, the
backslash and four control characters have short escapes, and whatever is not
seen or is drawn onto its neighbour is given by number. -/
def escaped (quote c : Char) : List Char :=
  if c = '\x00' then ['\\', '0']
  else if c = '\t' then ['\\', 't']
  else if c = '\r' then ['\\', 'r']
  else if c = '\n' then ['\\', 'n']
  else if c = '\\' then ['\\', '\\']
  else if c = quote then ['\\', quote]
  else if isExtending c || !isPrintable c then numberEscape c
  else [c]

/-- A text between double quotes. -/
def quotedText (text : List Char) : String :=
  String.ofList ('"' :: text.flatMap (escaped '"') ++ ['"'])

/-- A string between double quotes. -/
def quoted (s : String) : String :=
  quotedText s.toList

/-- A character between single quotes. -/
def quotedChar (c : Char) : String :=
  String.ofList ('\'' :: escaped '\'' c ++ ['\''])

end LiveCoding
