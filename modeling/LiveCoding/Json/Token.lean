/-!
# JSON tokens

The body of a message is a JSON text.  Reading starts with cutting it into
tokens, one byte at a time, so the tokens of a long text take no more than one
pass.  Any byte that fits no token makes the whole text wrong.

## Main Definitions

* `Json.Token`: the tokens.  A string keeps its bytes as they are written: an
  escape is checked for its form here, and understood only where the string is
  used.
* `Json.Numeral`: a number as it is written.
* `Json.tokens?`: the tokens of a text.

## Design Notes

`Json.Lexer.step?` is the transition of an automaton on bytes and `tokens?` folds
it over the text, so a text cut in two is read by going on from where the first
part ended.
-/

namespace LiveCoding

namespace Json

/-- A number as it is written. -/
structure Numeral where
  negative : Bool
  /-- The digits in front of the point. -/
  whole : List Nat
  /-- The digits behind the point, none if there is no point. -/
  fraction : List Nat
  /-- The exponent, if one is written. -/
  exponent : Option Int
deriving DecidableEq, Repr

/-- A token of a JSON text. -/
inductive Token where
  | listOpen
  | listClose
  | recordOpen
  | recordClose
  | colon
  | comma
  | null
  | bool (value : Bool)
  | number (numeral : Numeral)
  /-- A string, by the bytes between its quotes. -/
  | text (raw : List UInt8)
deriving DecidableEq, Repr

namespace Lexer

/-- How far a number has come. -/
inductive Phase where
  /-- Behind a minus sign. -/
  | sign
  /-- Behind a zero that starts the number; no digit may follow. -/
  | zero
  | whole
  | point
  | fraction
  /-- Behind the letter of an exponent. -/
  | mark
  | exponentSign
  | exponent
deriving DecidableEq, Repr

/-- A number in the making; its digits are held newest first. -/
structure Draft where
  phase : Phase
  negative : Bool
  whole : List Nat := []
  fraction : List Nat := []
  exponentNegative : Bool := false
  exponent : Nat := 0
deriving DecidableEq, Repr

/-- Where the reader is. -/
inductive Mode where
  /-- Between tokens. -/
  | gap
  /-- Inside a literal name, with the bytes to come. -/
  | name (rest : List UInt8) (token : Token)
  /-- Inside a string, with the bytes behind, newest first. -/
  | text (raw : List UInt8)
  /-- Behind a backslash in a string. -/
  | escape (raw : List UInt8)
  /-- Inside an escape by number, with how many digits are to come. -/
  | hex (left : Nat) (raw : List UInt8)
  /-- Inside a number. -/
  | number (draft : Draft)
deriving DecidableEq, Repr

/-- The state of the reader: the tokens behind, newest first, and where it is. -/
structure State where
  found : List Token := []
  mode : Mode := .gap
deriving DecidableEq, Repr

/-- The byte of an ASCII character. -/
def byte (c : Char) : UInt8 :=
  c.toUInt8

/-- A byte that may stand between tokens. -/
def isSpace (b : UInt8) : Bool :=
  b == 32 || b == 10 || b == 9 || b == 13

/-- The value of a decimal digit. -/
def digit? (b : UInt8) : Option Nat :=
  if 48 ≤ b && b ≤ 57 then some (b.toNat - 48) else none

/-- The value of a hexadecimal digit of either case. -/
def hexDigit? (b : UInt8) : Option Nat :=
  if 48 ≤ b && b ≤ 57 then some (b.toNat - 48)
  else if 97 ≤ b && b ≤ 102 then some (b.toNat - 87)
  else if 65 ≤ b && b ≤ 70 then some (b.toNat - 55)
  else none

/-- A letter of an exponent. -/
def isMark (b : UInt8) : Bool :=
  b == byte 'e' || b == byte 'E'

/-- A byte that may stand alone behind a backslash. -/
def isShortEscape (b : UInt8) : Bool :=
  ['"', '\\', '/', 'b', 'f', 'n', 'r', 't'].any fun c => b == byte c

/-- The greatest size of an exponent that is told apart from greater ones.  No text
has the digits to make up for an exponent of this size: the number it belongs to is
zero or out of range, and so are those of all greater exponents. -/
def greatestExponent : Nat := Nat.pow 2 31 - 1

/-- The number with one more byte, or `none` if the byte is not part of it. -/
def Draft.extend? (draft : Draft) (b : UInt8) : Option Draft :=
  match draft.phase, digit? b with
  | .sign, some 0 => some { draft with phase := .zero, whole := [0] }
  | .sign, some d => some { draft with phase := .whole, whole := [d] }
  | .whole, some d => some { draft with whole := d :: draft.whole }
  | .point, some d | .fraction, some d =>
    some { draft with phase := .fraction, fraction := d :: draft.fraction }
  | .mark, some d | .exponentSign, some d | .exponent, some d =>
    some { draft with
      phase := .exponent
      exponent := min greatestExponent (draft.exponent * 10 + d) }
  | .zero, none | .whole, none =>
    if b = byte '.' then some { draft with phase := .point }
    else if isMark b then some { draft with phase := .mark }
    else none
  | .fraction, none => if isMark b then some { draft with phase := .mark } else none
  | .mark, none =>
    if b = byte '+' then some { draft with phase := .exponentSign }
    else if b = byte '-' then some { draft with phase := .exponentSign, exponentNegative := true }
    else none
  | _, _ => none

/-- The finished number, unless it ends where a digit is missing or a digit
follows a zero. -/
def Draft.finish? (draft : Draft) : Option Numeral :=
  let numeral : Numeral :=
    { negative := draft.negative
      whole := draft.whole.reverse
      fraction := draft.fraction.reverse
      exponent := none }
  match draft.phase with
  | .zero | .whole | .fraction => some numeral
  | .exponent =>
    let size : Int := draft.exponent
    some { numeral with exponent := some (if draft.exponentNegative then -size else size) }
  | .sign | .point | .mark | .exponentSign => none

/-- The bytes of an ASCII word. -/
def asciiBytes (word : String) : List UInt8 :=
  word.toList.map byte

/-- One byte between tokens. -/
def startToken? (found : List Token) (b : UInt8) : Option State :=
  let single (token : Token) : Option State := some { found := token :: found }
  let go (mode : Mode) : Option State := some { found, mode }
  if isSpace b then some { found }
  else if b = byte '[' then single .listOpen
  else if b = byte ']' then single .listClose
  else if b = byte '\x7b' then single .recordOpen
  else if b = byte '\x7d' then single .recordClose
  else if b = byte ':' then single .colon
  else if b = byte ',' then single .comma
  else if b = byte '"' then go (.text [])
  else if b = byte '-' then go (.number { phase := .sign, negative := true })
  else if b = byte 'n' then go (.name (asciiBytes "ull") .null)
  else if b = byte 't' then go (.name (asciiBytes "rue") (.bool true))
  else if b = byte 'f' then go (.name (asciiBytes "alse") (.bool false))
  else (({ phase := .sign, negative := false } : Draft).extend? b).map fun draft =>
    { found, mode := .number draft }

/-- One byte.  Control characters may not stand in a string, and any other byte
may, whether or not it is part of a character. -/
def step? (state : State) (b : UInt8) : Option State :=
  let found := state.found
  match state.mode with
  | .gap => startToken? found b
  | .name [] token => startToken? (token :: found) b
  | .name (expected :: rest) token =>
    if b ≠ expected then none
    else if rest.isEmpty then some { found := token :: found }
    else some { found, mode := .name rest token }
  | .text raw =>
    if b = byte '"' then some { found := .text raw.reverse :: found }
    else if b = byte '\\' then some { found, mode := .escape raw }
    else if b < 32 then none
    else some { found, mode := .text (b :: raw) }
  | .escape raw =>
    if isShortEscape b then some { found, mode := .text (b :: byte '\\' :: raw) }
    else if b = byte 'u' then some { found, mode := .hex 4 (b :: byte '\\' :: raw) }
    else none
  | .hex left raw =>
    if (hexDigit? b).isNone then none
    else if left ≤ 1 then some { found, mode := .text (b :: raw) }
    else some { found, mode := .hex (left - 1) (b :: raw) }
  | .number draft =>
    match draft.extend? b with
    | some draft => some { found, mode := .number draft }
    | none =>
      match draft.phase, digit? b with
      | .zero, some _ => none
      | _, _ => draft.finish? >>= fun numeral => startToken? (.number numeral :: found) b

/-- The tokens, once the text has ended; `none` inside a token. -/
def State.finish? (state : State) : Option (List Token) :=
  match state.mode with
  | .gap => some state.found.reverse
  | .number draft => draft.finish?.map fun numeral => (.number numeral :: state.found).reverse
  | .name _ _ | .text _ | .escape _ | .hex _ _ => none

end Lexer

/-- The tokens of a text. -/
def tokens? (text : List UInt8) : Option (List Token) := do
  let state ← text.foldlM Lexer.step? {}
  state.finish?

end Json

end LiveCoding
