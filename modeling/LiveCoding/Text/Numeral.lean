/-!
# Decimal numerals

Ports, cursor positions and body lengths are written as decimal numerals.  A
numeral is one or more ASCII digits, with leading zeros allowed; a plus sign may
stand in front, and a minus sign where negative numbers have a meaning.  Numbers
outside the 64-bit range of their kind are refused, never wrapped.
-/

namespace LiveCoding

/-- The greatest unsigned 64-bit number. -/
def maxUnsigned : Nat := Nat.pow 2 64 - 1

/-- An ASCII digit. -/
def isDigit (c : Char) : Bool :=
  '0' ≤ c && c ≤ '9'

/-- The value of an ASCII digit. -/
def digitValue (c : Char) : Nat :=
  c.toNat - '0'.toNat

/-- A number with one more digit behind it, unless it passes the limit. -/
def pushDigit? (limit value : Nat) (c : Char) : Option Nat :=
  if !isDigit c then none
  else if limit < value * 10 + digitValue c then none
  else some (value * 10 + digitValue c)

/-- Reads one or more digits, and nothing else, that write a number up to a limit.
More digits never make a number smaller, so reading stops at the first one that
passes the limit, however many are to come. -/
def readUpTo? (limit : Nat) (digits : List Char) : Option Nat :=
  if digits.isEmpty then none else digits.foldlM (pushDigit? limit) 0

/-- Reads an unsigned 64-bit number. -/
def readUnsigned? (text : List Char) : Option Nat :=
  let digits := match text with
    | '+' :: rest => rest
    | _ => text
  readUpTo? maxUnsigned digits

/-- Reads a signed 64-bit number; there is one more below zero than above. -/
def readSigned? (text : List Char) : Option Int :=
  match text with
  | '-' :: rest => (readUpTo? (Nat.pow 2 63) rest).map fun n => -(n : Int)
  | '+' :: rest => (readUpTo? (Nat.pow 2 63 - 1) rest).map fun n => (n : Int)
  | _ => (readUpTo? (Nat.pow 2 63 - 1) text).map fun n => (n : Int)

end LiveCoding
