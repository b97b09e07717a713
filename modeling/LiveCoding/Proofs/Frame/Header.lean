import LiveCoding.Frame.Scanner
import LiveCoding.Proofs.Text.Numeral
import LiveCoding.Proofs.Text.Pieces
import LiveCoding.Proofs.Text.Utf8

/-!
# The header that is written

A frame is written with a header block of one line.  That line is understood by the
reader of headers, which accepts much more: other lines, other spellings, blanks.

## Main Definitions

* `Frame.emptyLine`: the bytes behind a header block.
* `Frame.lengthLine`: the line that announces a length.

## Main Statements

* `Frame.encode_eq`: a frame is that line, an empty line and the body.
* `Frame.contentLength_lengthLine`: the length that is announced is read back.
* `Frame.contentLength_eq_error`: the two faults that a header block can have.
-/

namespace LiveCoding

namespace Frame

/-- The bytes behind a header block. -/
def emptyLine : List UInt8 := [13, 10, 13, 10]

/-- The line that announces a length. -/
def lengthLine (n : Nat) : List Char :=
  "Content-Length: ".toList ++ Nat.toDigits 10 n

theorem toList_header (n : Nat) :
    (s!"Content-Length: {n}\r\n\r\n").toList = lengthLine n ++ "\r\n\r\n".toList := by
  unfold lengthLine
  rw [String.toList_append, String.toList_append, Nat.toString_eq_repr, Nat.toList_repr]
  rfl

theorem encode_eq (body : String) :
    encode body =
      Utf8.encode (lengthLine body.utf8ByteSize) ++ (emptyLine ++ utf8Bytes body) := by
  rw [encode, utf8Bytes, toList_header, Utf8.encode_append, List.append_assoc]
  rfl

/-- A character of the line is a digit or one of those in front of the digits. -/
theorem mem_lengthLine {n : Nat} {c : Char} (h : c ∈ lengthLine n) :
    c ∈ "Content-Length: ".toList ∨ isDigit c = true := by
  rcases List.mem_append.mp h with h | h
  · exact Or.inl h
  · exact Or.inr (isDigit_of_mem_toDigits h)

theorem return_not_mem_lengthLine (n : Nat) : '\r' ∉ lengthLine n := by
  intro h
  rcases mem_lengthLine h with h | h
  · exact absurd h (by decide)
  · exact absurd h (by decide)

theorem lengthLine_ascii {n : Nat} {c : Char} (h : c ∈ lengthLine n) : c.toNat < 0x80 := by
  rcases mem_lengthLine h with h | h
  · have ascii : "Content-Length: ".toList.all (·.toNat < 0x80) = true := by decide
    exact of_decide_eq_true (List.all_eq_true.mp ascii c h)
  · rw [isDigit, Bool.and_eq_true, decide_eq_true_eq, decide_eq_true_eq] at h
    have upper : c.toNat ≤ 57 := h.2
    omega

/-- The line is short, also if the body is not. -/
theorem length_lengthLine_le {n : Nat} (h : n ≤ maxUnsigned) :
    (Utf8.encode (lengthLine n)).length ≤ 36 := by
  have digits : (Nat.toDigits 10 n).length ≤ 20 := by
    rw [Nat.length_toDigits_le_iff (by decide) (by decide)]
    exact Nat.lt_of_le_of_lt h (by decide)
  have name : "Content-Length: ".toList.length = 16 := by decide
  rw [Utf8.length_encode_ascii fun c hc => lengthLine_ascii hc]
  unfold lengthLine
  rw [List.length_append, name]
  omega

/-! ### Reading it -/

/-- The characters that end a line. -/
def lineEnd : List Char := ['\r', '\n']

section Lines

variable {text : List Char} (line : List Char) (found : List (List Char))

theorem headerLinesFrom_cons {c : Char} (h : ¬ lineEnd <+: c :: text) :
    headerLinesFrom line found (c :: text) = headerLinesFrom (c :: line) found text := by
  rw [headerLinesFrom]
  rintro rest rfl rfl
  exact h (List.prefix_append lineEnd rest)

/-- A line that is the last one. -/
theorem headerLinesFrom_last (h : ¬ lineEnd <:+: text) :
    headerLinesFrom line found text = found.reverse ++ [line.reverse ++ text] := by
  induction text generalizing line with
  | nil => simp [headerLinesFrom]
  | cons c text ih =>
    rw [List.infix_cons_iff, not_or] at h
    rw [headerLinesFrom_cons line found h.1, ih _ h.2]
    simp

/-- A line that ends. -/
theorem headerLinesFrom_append (h : ¬ lineEnd <:+: text) (rest : List Char) :
    headerLinesFrom line found (text ++ (lineEnd ++ rest)) =
      headerLinesFrom [] ((line.reverse ++ text) :: found) rest := by
  induction text generalizing line with
  | nil =>
    rw [List.nil_append, List.append_nil]
    rfl
  | cons c text ih =>
    rw [List.infix_cons_iff, not_or] at h
    -- a line end that begins here would end in the text, since no line end begins with its
    -- second character
    have notHere : ¬ lineEnd <+: c :: (text ++ (lineEnd ++ rest)) := by
      intro here
      cases text with
      | nil =>
        have second := (List.cons_prefix_cons.mp here).2
        exact absurd (List.cons_prefix_cons.mp second).1 (by decide)
      | cons d text =>
        refine h.1 (List.prefix_of_prefix_length_le here ?_ ?_)
        · exact List.prefix_append (c :: d :: text) (lineEnd ++ rest)
        · show 2 ≤ text.length + 1 + 1
          omega
    rw [List.cons_append, headerLinesFrom_cons line found notHere, ih _ h.2]
    simp

end Lines

/-- **The length that is announced is read back.** -/
theorem contentLength_lengthLine {n : Nat} (h : n ≤ maxUnsigned) :
    contentLength (Utf8.encode (lengthLine n)) = .ok n := by
  have oneLine : headerLines (lengthLine n) = [lengthLine n] := by
    have noEnd : ¬ lineEnd <:+: lengthLine n := fun h =>
      return_not_mem_lengthLine n (h.subset List.mem_cons_self)
    rw [headerLines, headerLinesFrom_last [] [] noEnd]
    rfl
  -- the blank behind the colon belongs to the value until it is trimmed
  have cut : lengthLine n = "Content-Length".toList ++ ':' :: ' ' :: Nat.toDigits 10 n := rfl
  have value : trim (' ' :: Nat.toDigits 10 n) = Nat.toDigits 10 n := by
    have drop : trim (' ' :: Nat.toDigits 10 n) = trim (Nat.toDigits 10 n) := rfl
    rw [drop, trim_of_not_blank]
    intro c hc
    exact isBlank_of_isDigit (isDigit_of_mem_toDigits hc)
  have found : lengthValue? (lengthLine n) = some (Nat.toDigits 10 n) := by
    have named : lowerAscii (trim "Content-Length".toList) = "content-length".toList := by decide
    rw [lengthValue?, cut, splitFirst?_append (by decide)]
    simp only [Option.bind_eq_bind, Option.bind_some, named, if_true, value]
  rw [contentLength, Utf8.decodeLossy_encode, oneLine, List.findSome?_cons, found]
  simp only [readUnsigned?_toDigits h]

/-- **What can be wrong with a header block**: it gives no length, or none that is a
number. -/
theorem contentLength_eq_error {header : List UInt8} {error : Error}
    (h : contentLength header = .error error) :
    error = .missingLength ∨ ∃ value, error = .badLength value := by
  unfold contentLength at h
  split at h
  next =>
    obtain rfl : .missingLength = error := Except.error.inj h
    exact Or.inl rfl
  next value _ =>
    split at h
    next =>
      obtain rfl : .badLength _ = error := Except.error.inj h
      exact Or.inr ⟨_, rfl⟩
    next => contradiction

end Frame

end LiveCoding
