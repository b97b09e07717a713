import LiveCoding.Json.Tree
import LiveCoding.Number.Shortest
import LiveCoding.Text.Numeral
import LiveCoding.Text.Quoted
import LiveCoding.Text.Utf8

/-!
# JSON values

A part of a message that is looked at has its strings and numbers understood.  A
string must be UTF-8 with every surrogate in its pair.  A number is a whole one if
it is written as such and fits 64 bits, signed or unsigned; any other becomes a
binary64 number, and one that is too large for that is refused.

## Main Definitions

* `Json.Value`: what a tree means.
* `Json.Tree.value?`: the meaning of a tree that nests at most so deep.
* `Json.Value.render`: the shortest text of a value.
-/

namespace LiveCoding

namespace Json

/-- A number that has been understood. -/
inductive Number where
  | whole (value : Int)
  | double (value : Binary64)
deriving DecidableEq, Repr

/-- What a JSON text means. -/
inductive Value where
  | null
  | bool (value : Bool)
  | number (value : Number)
  | text (value : String)
  | list (items : List Value)
  /-- A record; no two members have the same key. -/
  | record (members : List (String × Value))
deriving Repr, Inhabited

/-! ## Strings -/

/-- The number that four hexadecimal digits write. -/
def codeUnit (digits : List UInt8) : Nat :=
  digits.foldl (fun value b => value * 16 + (Lexer.hexDigit? b).getD 0) 0

/-- The character of a short escape. -/
def shortEscape (b : UInt8) : UInt8 :=
  if b = Lexer.byte 'b' then 8
  else if b = Lexer.byte 'f' then 12
  else if b = Lexer.byte 'n' then 10
  else if b = Lexer.byte 'r' then 13
  else if b = Lexer.byte 't' then 9
  else b

/-- The bytes behind, newest first, then those that a written string stands for.
A surrogate without its partner stands for nothing. -/
def unescapeFrom? (behind : List UInt8) : List UInt8 → Option (List UInt8)
  | 92 :: 117 :: a :: b :: c :: d :: rest =>
    let unit := codeUnit [a, b, c, d]
    if unit < 0xD800 || 0xDFFF < unit then
      unescapeFrom? ((String.utf8EncodeChar (Char.ofNat unit)).reverse ++ behind) rest
    else if 0xDBFF < unit then none
    else
      match rest with
      | 92 :: 117 :: a' :: b' :: c' :: d' :: rest =>
        let low := codeUnit [a', b', c', d']
        if low < 0xDC00 || 0xDFFF < low then none
        else
          let c := Char.ofNat (0x10000 + (unit - 0xD800) * 0x400 + (low - 0xDC00))
          unescapeFrom? ((String.utf8EncodeChar c).reverse ++ behind) rest
      | _ => none
  | 92 :: b :: rest => unescapeFrom? (shortEscape b :: behind) rest
  | b :: rest => unescapeFrom? (b :: behind) rest
  | [] => some behind.reverse

/-- The string that is written by the bytes between two quotes. -/
def readText? (raw : List UInt8) : Option String :=
  match (unescapeFrom? [] raw).map Utf8.decode with
  | some (.ok text) => some (String.ofList text)
  | _ => none

/-! ## Numbers -/

/-- Digits taken into a significand of 64 bits: the significand, and how many
digits no longer fit once the first did not. -/
def takeWhole (significand : Nat) : List Nat → Nat × Nat
  | [] => (significand, 0)
  | d :: rest =>
    if significand * 10 + d ≤ maxUnsigned then takeWhole (significand * 10 + d) rest
    else (significand, rest.length + 1)

/-- Digits behind the point taken into a significand of 64 bits, and how many of
them fitted. -/
def takeFraction (significand taken : Nat) : List Nat → Nat × Nat
  | [] => (significand, taken)
  | d :: rest =>
    if significand * 10 + d ≤ maxUnsigned then
      takeFraction (significand * 10 + d) (taken + 1) rest
    else (significand, taken)

/-- The binary64 number of a significand and an exponent. -/
def double? (negative : Bool) (significand : Nat) (exponent : Int) : Option Number :=
  (Binary64.ofDecimal? significand exponent).map fun x => .double { x with negative }

/-- The number that a numeral writes, unless it is out of range.  Minus zero is no
whole number. -/
def Numeral.number? (numeral : Numeral) : Option Number :=
  let (significand, dropped) := takeWhole 0 numeral.whole
  if numeral.fraction.isEmpty && numeral.exponent.isNone && dropped = 0 then
    if !numeral.negative then some (.whole significand)
    else if 0 < significand && significand ≤ Nat.pow 2 63 then some (.whole (-(significand : Int)))
    else double? true significand 0
  else
    let (significand, taken) := takeFraction significand 0 numeral.fraction
    double? numeral.negative significand ((dropped : Int) - taken + numeral.exponent.getD 0)

/-! ## Trees -/

/-- A record with one more member; an earlier one of the same key gives way. -/
def putMember (members : List (String × Value)) (key : String) (value : Value) :
    List (String × Value) :=
  members.filter (·.1 != key) ++ [(key, value)]

mutual

/-- The meaning of a tree with at most `depth` containers inside each other. -/
def Tree.value? (depth : Nat) : Tree → Option Value
  | .null => some .null
  | .bool value => some (.bool value)
  | .number numeral => numeral.number?.map .number
  | .text raw => (readText? raw).map .text
  | .list items => if depth = 0 then none else (Tree.values? (depth - 1) items).map .list
  | .record members =>
    if depth = 0 then none else (Tree.members? (depth - 1) [] members).map .record

/-- The meaning of the items of a list. -/
def Tree.values? (depth : Nat) : List Tree → Option (List Value)
  | [] => some []
  | item :: rest => do
    let value ← Tree.value? depth item
    let values ← Tree.values? depth rest
    return value :: values

/-- The meaning of the members of a record, on top of those behind. -/
def Tree.members? (depth : Nat) (behind : List (String × Value)) :
    List (List UInt8 × Tree) → Option (List (String × Value))
  | [] => some behind
  | (raw, item) :: rest => do
    let key ← readText? raw
    let value ← Tree.value? depth item
    Tree.members? depth (putMember behind key value) rest

end

/-! ## Writing -/

/-- One character as it stands in a written string. -/
def escapedChar (c : Char) : List Char :=
  if c = '"' then ['\\', '"']
  else if c = '\\' then ['\\', '\\']
  else if c = '\x08' then ['\\', 'b']
  else if c = '\x0c' then ['\\', 'f']
  else if c = '\n' then ['\\', 'n']
  else if c = '\r' then ['\\', 'r']
  else if c = '\t' then ['\\', 't']
  else if c.toNat < 32 then
    let digits := hexDigits c.toNat
    ['\\', 'u'] ++ List.replicate (4 - digits.length) '0' ++ digits
  else [c]

/-- A string between quotes. -/
def renderText (s : String) : String :=
  String.ofList ('"' :: s.toList.flatMap escapedChar ++ ['"'])

/-- A number. -/
def Number.render : Number → String
  | .whole value => toString value
  | .double value => value.display

mutual

/-- The text of a value, without spaces. -/
def Value.render : Value → String
  | .null => "null"
  | .bool value => if value then "true" else "false"
  | .number value => value.render
  | .text value => renderText value
  | .list items => "[" ++ ",".intercalate (Value.renderItems items) ++ "]"
  | .record members => "\x7b" ++ ",".intercalate (Value.renderMembers members) ++ "\x7d"

/-- The texts of the items of a list. -/
def Value.renderItems : List Value → List String
  | [] => []
  | item :: rest => item.render :: Value.renderItems rest

/-- The texts of the members of a record. -/
def Value.renderMembers : List (String × Value) → List String
  | [] => []
  | (key, value) :: rest => (renderText key ++ ":" ++ value.render) :: Value.renderMembers rest

end

end Json

end LiveCoding
