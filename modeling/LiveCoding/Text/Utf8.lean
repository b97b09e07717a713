/-!
# UTF-8

Text travels as bytes: documents and settings are files, code is sent in
packets, and an interpreter answers on a pipe.  This module writes characters as
bytes and reads bytes back as characters.

## Main Definitions

* `Utf8.encode`: the bytes of a text.
* `Utf8.pieces`: a byte string cut into characters and sequences that are no
  character.  Both readers are folds over it.
* `Utf8.decode`: the strict reader, which names the first fault and its place.
* `Utf8.decodeLossy`: the forgiving reader, which puts U+FFFD for every fault.

## Design Notes

A sequence that is no character is as long as the longest part of it that could
begin one, so `E2 82 41` is one fault of two bytes and then the letter `A`.
Only at the very end of the bytes is such a part *cut off* instead of invalid:
more bytes could still complete it.
-/

namespace LiveCoding

namespace Utf8

/-- The bytes of a text, character by character. -/
def encode (text : List Char) : List UInt8 :=
  text.flatMap String.utf8EncodeChar

@[simp] theorem encode_nil : encode [] = [] := rfl

@[simp] theorem encode_cons (c : Char) (text : List Char) :
    encode (c :: text) = String.utf8EncodeChar c ++ encode text := rfl

@[simp] theorem encode_append (s t : List Char) : encode (s ++ t) = encode s ++ encode t := by
  simp [encode]

/-- How many bytes a text takes. -/
def size (text : List Char) : Nat :=
  text.foldr (fun c n => c.utf8Size + n) 0

@[simp] theorem size_nil : size [] = 0 := rfl

@[simp] theorem size_cons (c : Char) (text : List Char) :
    size (c :: text) = c.utf8Size + size text := rfl

@[simp] theorem size_append (s t : List Char) : size (s ++ t) = size s + size t := by
  induction s with
  | nil => simp
  | cons c s ih => simp [ih, Nat.add_assoc]

/-- One stretch of bytes as a reader sees it. -/
inductive Piece where
  /-- The bytes of one character. -/
  | char (c : Char)
  /-- As many bytes that no further bytes turn into a character. -/
  | invalid (length : Nat)
  /-- As many bytes at the end that more bytes could turn into a character. -/
  | cutOff (length : Nat)
deriving DecidableEq, Repr

/-- What a first byte above ASCII asks of the bytes after it. -/
structure Lead where
  /-- How many bytes follow. -/
  following : Nat
  /-- The least second byte. -/
  least : Nat
  /-- The greatest second byte. -/
  greatest : Nat
  /-- The bits that the first byte gives to the character. -/
  bits : Nat
deriving DecidableEq, Repr

/-- Reads a first byte above ASCII.  The bounds on the second byte leave out
overlong forms, surrogates and everything past U+10FFFF. -/
def Lead.ofByte? (b : UInt8) : Option Lead :=
  let n := b.toNat
  if n < 0xC2 then none
  else if n < 0xE0 then some ⟨1, 0x80, 0xBF, n - 0xC0⟩
  else if n = 0xE0 then some ⟨2, 0xA0, 0xBF, 0⟩
  else if n = 0xED then some ⟨2, 0x80, 0x9F, 0xD⟩
  else if n < 0xF0 then some ⟨2, 0x80, 0xBF, n - 0xE0⟩
  else if n = 0xF0 then some ⟨3, 0x90, 0xBF, 0⟩
  else if n < 0xF4 then some ⟨3, 0x80, 0xBF, n - 0xF0⟩
  else if n = 0xF4 then some ⟨3, 0x80, 0x8F, 4⟩
  else none

/-- A second byte that the first allows. -/
def Lead.admits (lead : Lead) (b : UInt8) : Bool :=
  lead.least ≤ b.toNat && b.toNat ≤ lead.greatest

/-- A byte that can stand inside a character. -/
def isContinuation (b : UInt8) : Bool :=
  0x80 ≤ b.toNat && b.toNat < 0xC0

/-- Six more bits of a character. -/
def extend (bits : Nat) (b : UInt8) : Nat :=
  bits * 64 + b.toNat % 64

/-- The pieces found so far, newest first, followed by those of the bytes. -/
def piecesFrom : List Piece → List UInt8 → List Piece
  | found, [] => found.reverse
  | found, b₀ :: rest =>
    if b₀.toNat < 0x80 then piecesFrom (.char (Char.ofNat b₀.toNat) :: found) rest
    else
      match Lead.ofByte? b₀ with
      | none => piecesFrom (.invalid 1 :: found) rest
      | some lead =>
        match rest with
        | [] => (Piece.cutOff 1 :: found).reverse
        | b₁ :: rest₁ =>
          if !lead.admits b₁ then piecesFrom (.invalid 1 :: found) (b₁ :: rest₁)
          else if lead.following = 1 then
            piecesFrom (.char (Char.ofNat (extend lead.bits b₁)) :: found) rest₁
          else
            match rest₁ with
            | [] => (Piece.cutOff 2 :: found).reverse
            | b₂ :: rest₂ =>
              if !isContinuation b₂ then piecesFrom (.invalid 2 :: found) (b₂ :: rest₂)
              else if lead.following = 2 then
                piecesFrom (.char (Char.ofNat (extend (extend lead.bits b₁) b₂)) :: found) rest₂
              else
                match rest₂ with
                | [] => (Piece.cutOff 3 :: found).reverse
                | b₃ :: rest₃ =>
                  if !isContinuation b₃ then piecesFrom (.invalid 3 :: found) (b₃ :: rest₃)
                  else
                    piecesFrom
                      (.char (Char.ofNat (extend (extend (extend lead.bits b₁) b₂) b₃)) :: found)
                      rest₃

/-- The bytes cut into characters and faults. -/
def pieces (bytes : List UInt8) : List Piece :=
  piecesFrom [] bytes

/-- Why bytes are no text, and where. -/
inductive Fault where
  /-- So many bytes at this index are no character. -/
  | invalid (length index : Nat)
  /-- The bytes end inside a character that starts at this index. -/
  | incomplete (index : Nat)
deriving DecidableEq, Repr

/-- The wording of a fault. -/
def Fault.message : Fault → String
  | .invalid length index => s!"invalid utf-8 sequence of {length} bytes from index {index}"
  | .incomplete index => s!"incomplete utf-8 byte sequence from index {index}"

/-- Collects characters up to the first fault.  `index` counts the bytes behind
and `text` holds the characters behind, newest first. -/
def collect (index : Nat) (text : List Char) : List Piece → Except Fault (List Char)
  | [] => .ok text.reverse
  | .char c :: rest => collect (index + c.utf8Size) (c :: text) rest
  | .invalid length :: _ => .error (.invalid length index)
  | .cutOff _ :: _ => .error (.incomplete index)

/-- Reads bytes as text, or names the first fault. -/
def decode (bytes : List UInt8) : Except Fault (List Char) :=
  collect 0 [] (pieces bytes)

/-- The character that a forgiving reader shows for a piece. -/
def Piece.shown : Piece → Char
  | .char c => c
  | .invalid _ | .cutOff _ => '\uFFFD'

/-- Reads bytes as text with U+FFFD in place of every fault. -/
def decodeLossy (bytes : List UInt8) : List Char :=
  (pieces bytes).map Piece.shown

/-- How many characters lie wholly within the first `limit` bytes, on top of
`count`. -/
def charsWithinFrom (count : Nat) (limit : Nat) : List Char → Nat
  | [] => count
  | c :: rest =>
    if c.utf8Size ≤ limit then charsWithinFrom (count + 1) (limit - c.utf8Size) rest else count

/-- How many characters lie wholly within the first `limit` bytes. -/
def charsWithin (limit : Nat) (text : List Char) : Nat :=
  charsWithinFrom 0 limit text

/-- The characters that lie wholly within the first `limit` bytes. -/
def takeWithin (limit : Nat) (text : List Char) : List Char :=
  text.take (charsWithin limit text)

/-- What is left without the characters wholly within the first `limit` bytes. -/
def dropWithin (limit : Nat) (text : List Char) : List Char :=
  text.drop (charsWithin limit text)

/-- The text in front of byte `offset` and the text from there on, unless the
offset lies past the end or inside a character.  `before` holds the characters
behind, newest first. -/
def splitAtByteFrom? (before : List Char) : Nat → List Char → Option (List Char × List Char)
  | 0, text => some (before.reverse, text)
  | _ + 1, [] => none
  | offset + 1, c :: rest =>
    if c.utf8Size ≤ offset + 1 then splitAtByteFrom? (c :: before) (offset + 1 - c.utf8Size) rest
    else none

/-- The text in front of byte `offset` and the text from there on, unless the
offset lies past the end or inside a character. -/
def splitAtByte? (offset : Nat) (text : List Char) : Option (List Char × List Char) :=
  splitAtByteFrom? [] offset text

end Utf8

/-- The bytes of a string. -/
def utf8Bytes (s : String) : List UInt8 :=
  Utf8.encode s.toList

end LiveCoding
