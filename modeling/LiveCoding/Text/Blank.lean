/-!
# Blank characters

Code is worth sending only if something in it is not blank, and settings are cut
at blanks.  Blank means the Unicode property White_Space, which is wider than
ASCII: no-break spaces, the ideographic space and the line separators count.

## Main Definitions

* `isBlank`: the property.
* `trim`: a text without the blanks at either end.
-/

namespace LiveCoding

/-- The ranges of the property White_Space, ends included. -/
def blankRanges : List (Nat × Nat) :=
  [(0x09, 0x0D), (0x20, 0x20), (0x85, 0x85), (0xA0, 0xA0), (0x1680, 0x1680), (0x2000, 0x200A),
    (0x2028, 0x2029), (0x202F, 0x202F), (0x205F, 0x205F), (0x3000, 0x3000)]

/-- A character with the property White_Space. -/
def isBlank (c : Char) : Bool :=
  blankRanges.any fun range => range.1 ≤ c.toNat && c.toNat ≤ range.2

/-- The text from its first character that is not blank. -/
def trimStart (text : List Char) : List Char :=
  text.dropWhile isBlank

/-- The text up to its last character that is not blank. -/
def trimEnd (text : List Char) : List Char :=
  (text.reverse.dropWhile isBlank).reverse

/-- The text without the blanks at either end. -/
def trim (text : List Char) : List Char :=
  trimEnd (trimStart text)

/-- The same for a string. -/
def trimmed (s : String) : String :=
  String.ofList (trim s.toList)

/-- A string without anything but blanks. -/
def isBlankText (s : String) : Bool :=
  s.toList.all isBlank

end LiveCoding
