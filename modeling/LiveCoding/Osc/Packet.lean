import LiveCoding.Osc.Message
import LiveCoding.Text.Utf8

/-!
# OSC packets

A packet is the address, the type tags and the arguments of a message, one after
the other.  A text takes its bytes, a NUL and as many more as bring it to a
multiple of four; a number takes four bytes, the most significant first.  The
type tags are a text too: a comma and one letter for each argument.

## Main Definitions

* `Osc.Message.encode`: the packet of a message.
* `Osc.Message.decode`: the message of a packet, or the first `Osc.Flaw`.

## Design Notes

The reader consumes the packet from the front: each step returns what it read and
the bytes behind it.  What stands in the padding behind the NUL is not looked at.
-/

namespace LiveCoding

namespace Osc

/-- How many bytes a text of so many bytes takes in a packet: at least one NUL,
up to a multiple of four. -/
def paddedLength (n : Nat) : Nat :=
  (n / 4 + 1) * 4

/-- The bytes of a text with its padding. -/
def paddedBytes (bytes : List UInt8) : List UInt8 :=
  bytes ++ List.replicate (paddedLength bytes.length - bytes.length) 0

/-- A text as it stands in a packet. -/
def encodeText (s : String) : Except Error (List UInt8) :=
  let bytes := utf8Bytes s
  if bytes.contains 0 then .error .interiorNul else .ok (paddedBytes bytes)

/-- The four bytes of a word, the most significant first. -/
def wordBytes (word : UInt32) : List UInt8 :=
  let n := word.toNat
  [.ofNat (n / 0x1000000), .ofNat (n / 0x10000), .ofNat (n / 0x100), .ofNat n]

/-- The word of four bytes, the most significant first. -/
def wordOf (b₀ b₁ b₂ b₃ : UInt8) : UInt32 :=
  .ofNat (b₀.toNat * 0x1000000 + b₁.toNat * 0x10000 + b₂.toNat * 0x100 + b₃.toNat)

/-- The letter that announces an argument. -/
def Arg.tag : Arg → Char
  | .int _ => 'i'
  | .float _ => 'f'
  | .text _ => 's'

/-- An argument as it stands in a packet. -/
def Arg.encode : Arg → Except Error (List UInt8)
  | .int value => .ok (wordBytes value.toUInt32)
  | .float bits => .ok (wordBytes bits)
  | .text value => encodeText value

/-- The type tags of a list of arguments. -/
def tagText (args : List Arg) : String :=
  String.ofList (',' :: args.map Arg.tag)

/-- The arguments one after the other, or what is wrong with the first that
cannot be sent. -/
def encodeArgs : List Arg → Except Error (List UInt8)
  | [] => .ok []
  | arg :: rest => do
    let front ← arg.encode
    let back ← encodeArgs rest
    return front ++ back

/-- The packet of a message. -/
def Message.encode (message : Message) : Except Error (List UInt8) := do
  if message.address.toList.head? != some '/' then
    throw (.invalidAddress message.address)
  let address ← encodeText message.address
  let tags ← encodeText (tagText message.args)
  let args ← encodeArgs message.args
  return address ++ tags ++ args

/-- What is wrong with a packet. -/
inductive Flaw where
  /-- No NUL ends the text. -/
  | unterminatedText
  /-- The padding of the text is cut off. -/
  | paddingTruncated
  /-- The text is not UTF-8. -/
  | notText (fault : Utf8.Fault)
  /-- The address does not start with a slash. -/
  | badAddress (address : List Char)
  /-- The type tags do not start with a comma. -/
  | missingTags
  /-- The packet ends inside an argument. -/
  | truncatedArgument
  /-- A type tag that stands for no kind of argument, by its byte. -/
  | unsupportedTag (tag : UInt8)
  /-- There are bytes behind the last argument. -/
  | trailingBytes
deriving DecidableEq, Repr

/-- The wording of a flaw. -/
def Flaw.message : Flaw → String
  | .unterminatedText => "unterminated string"
  | .paddingTruncated => "string padding truncated"
  | .notText fault => "string is not UTF-8: " ++ fault.message
  | .badAddress address => "bad address " ++ quotedText address
  | .missingTags => "missing type tag string"
  | .truncatedArgument => "truncated argument"
  | .unsupportedTag tag => "unsupported type tag " ++ quotedChar (Char.ofNat tag.toNat)
  | .trailingBytes => "trailing bytes"

/-- Reads a text off the front of a packet. -/
def readText (packet : List UInt8) : Except Flaw (List Char × List UInt8) :=
  let bytes := packet.takeWhile (· != 0)
  let padded := packet.take (paddedLength bytes.length)
  if padded.length = bytes.length then .error .unterminatedText
  else if padded.length < paddedLength bytes.length then .error .paddingTruncated
  else
    match Utf8.decode bytes with
    | .error fault => .error (.notText fault)
    | .ok text => .ok (text, packet.drop (paddedLength bytes.length))

/-- Reads a number off the front of a packet. -/
def readWord : List UInt8 → Except Flaw (UInt32 × List UInt8)
  | b₀ :: b₁ :: b₂ :: b₃ :: rest => .ok (wordOf b₀ b₁ b₂ b₃, rest)
  | _ => .error .truncatedArgument

/-- Reads an argument with the given tag off the front of a packet. -/
def readArg (tag : UInt8) (packet : List UInt8) : Except Flaw (Arg × List UInt8) :=
  if tag = 'i'.toUInt8 then do
    let (word, rest) ← readWord packet
    return (.int word.toInt32, rest)
  else if tag = 'f'.toUInt8 then do
    let (word, rest) ← readWord packet
    return (.float word, rest)
  else if tag = 's'.toUInt8 then do
    let (text, rest) ← readText packet
    return (.text (String.ofList text), rest)
  else .error (.unsupportedTag tag)

/-- Reads the arguments that the tags announce.  `found` holds those behind,
newest first. -/
def readArgs (found : List Arg) : List UInt8 → List UInt8 → Except Flaw (List Arg × List UInt8)
  | [], packet => .ok (found.reverse, packet)
  | tag :: tags, packet => do
    let (arg, rest) ← readArg tag packet
    readArgs (arg :: found) tags rest

/-- The message of a packet. -/
def Message.decode (packet : List UInt8) : Except Flaw Message := do
  let (address, rest) ← readText packet
  if address.head? != some '/' then throw (.badAddress address)
  let (tags, rest) ← readText rest
  match tags with
  | ',' :: tags =>
    let (args, rest) ← readArgs [] (Utf8.encode tags) rest
    if rest.isEmpty then return ⟨String.ofList address, args⟩ else throw .trailingBytes
  | _ => throw .missingTags

end Osc

end LiveCoding
