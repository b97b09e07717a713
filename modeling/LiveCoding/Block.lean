/-!
# Enclosing blocks

With nothing selected, the code to send is the innermost parenthesised block
around the cursor.  It is found by two scans over bytes: backward from the cursor
to the nearest parenthesis that is still open there, and forward from that one to
the parenthesis that closes it.

Only `(` and `)` count, wherever they stand, in string literals and comments too.
Both are ASCII, so no byte of a longer character is taken for one.

## Main Definitions

* `Span`: a half-open range of byte offsets.
* `Block.openBefore?`: the backward scan, over the bytes before the cursor in
  reverse.
* `Block.closeAfter?`: the forward scan.
* `Block.locate`: the block around a cursor.
-/

namespace LiveCoding

/-- The byte offsets from `start` up to, but without, `stop`. -/
structure Span where
  start : Nat
  stop : Nat
deriving DecidableEq, Repr

namespace Span

/-- How many bytes the span holds. -/
def length (span : Span) : Nat :=
  span.stop - span.start

/-- A span without bytes. -/
def isEmpty (span : Span) : Bool :=
  span.start == span.stop

/-- Whether the byte at `offset` lies in the span. -/
def contains (span : Span) (offset : Nat) : Bool :=
  span.start ≤ offset && offset < span.stop

end Span

namespace Block

/-- The byte of `(`. -/
def opening : UInt8 := 40

/-- The byte of `)`. -/
def closing : UInt8 := 41

/-- The offset of the nearest open parenthesis in bytes that are given last byte
first; `depth` closing ones behind the scan still wait for their partners.  The
bytes after a byte in this order are those before it in the text, so their number
is its offset. -/
def openBefore? (depth : Nat) : List UInt8 → Option Nat
  | [] => none
  | b :: earlier =>
    if b = closing then openBefore? (depth + 1) earlier
    else if b = opening then
      match depth with
      | 0 => some earlier.length
      | depth + 1 => openBefore? depth earlier
    else openBefore? depth earlier

/-- The offset of the parenthesis that closes the block, for bytes that start at
`offset`; `depth` blocks that opened behind the scan are still open. -/
def closeAfter? (offset depth : Nat) : List UInt8 → Option Nat
  | [] => none
  | b :: later =>
    if b = opening then closeAfter? (offset + 1) (depth + 1) later
    else if b = closing then
      match depth with
      | 0 => some offset
      | depth + 1 => closeAfter? (offset + 1) depth later
    else closeAfter? (offset + 1) depth later

/-- The innermost block around the cursor: there is none past the end of the
text, none where no parenthesis is open, and none where the open one is never
closed. -/
def locate (text : List UInt8) (cursor : Nat) : Option Span := do
  if cursor > text.length then none
  let start ← openBefore? 0 (text.take cursor).reverse
  let close ← closeAfter? (start + 1) 0 (text.drop (start + 1))
  if cursor < start || cursor > close then none
  some ⟨start, close + 1⟩

end Block

end LiveCoding
