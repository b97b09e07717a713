import LiveCoding.Proofs.Frame.Buffer
import LiveCoding.Proofs.Text.Lossy

/-!
# How a header may be spelt

Frames are written with one header line, but not only such frames are read: the line
may be among others, its name in capitals, with blanks around it and around the value,
and the other lines may be any bytes, text or not.  What is read are bytes, but what is
compared is text, so it matters that reading bytes as text neither hides nor makes up a
line end or a colon.  Then the lines of the text are those of the bytes, each with the
same two sides of its first colon.

## Main Definitions

* `Frame.ofLines`: a header block of some lines.
* `Frame.GivesLength`: a line that gives a length, and the value in it.

## Main Statements

* `Frame.headerLines_ofLines`: the lines of a block are found again.
* `Frame.lengthValue?_decodeLossy_eq_some_iff`: the value of a line.
* `Frame.contentLength_ofLines`: the first line that gives a length counts.
* `Frame.Scanner.pushAll_spelt`: a frame with such a block is read as the frame that is
  written.
-/

namespace LiveCoding

namespace Frame

/-- A header block of some lines. -/
def ofLines (lines : List (List UInt8)) : List UInt8 :=
  [13, 10].intercalate lines

/-- A line that gives a length: what is in front of its first colon is the name, blanks and
capitals aside, and what is behind it is the value. -/
def GivesLength (line value : List UInt8) : Prop :=
  ∃ name, line = name ++ 58 :: value ∧ 58 ∉ name ∧
    lowerAscii (trim (Utf8.decodeLossy name)) = "content-length".toList

/-! ### Lines -/

/-- A line end is read as one. -/
theorem decodeLossy_line (line rest : List UInt8) :
    Utf8.decodeLossy (line ++ ([13, 10] ++ rest)) =
      Utf8.decodeLossy line ++ (lineEnd ++ Utf8.decodeLossy rest) := by
  have feed : Utf8.decodeLossy (10 :: rest) = '\n' :: Utf8.decodeLossy rest :=
    Utf8.decodeLossy_append_ascii (by decide) [] rest
  have both : Utf8.decodeLossy (line ++ 13 :: 10 :: rest) =
      Utf8.decodeLossy line ++ '\r' :: Utf8.decodeLossy (10 :: rest) :=
    Utf8.decodeLossy_append_ascii (by decide) line (10 :: rest)
  rw [feed] at both
  exact both

/-- No line end is made up. -/
theorem lineEnd_not_shown {line : List UInt8} (clean : ¬ [13, 10] <:+: line) :
    ¬ lineEnd <:+: Utf8.decodeLossy line := by
  intro shown
  exact clean (Utf8.encode_infix_of_infix_decodeLossy shown (by decide))

theorem headerLinesFrom_ofLines {lines : List (List UInt8)} (nonempty : lines ≠ [])
    (clean : ∀ line ∈ lines, ¬ [13, 10] <:+: line) (found : List (List Char)) :
    headerLinesFrom [] found (Utf8.decodeLossy (ofLines lines)) =
      found.reverse ++ lines.map Utf8.decodeLossy := by
  induction lines generalizing found with
  | nil => exact absurd rfl nonempty
  | cons line lines ih =>
    obtain ⟨hline, hlines⟩ := List.forall_mem_cons.mp clean
    cases lines with
    | nil =>
      rw [ofLines, List.intercalate_singleton,
        headerLinesFrom_last [] found (lineEnd_not_shown hline)]
      rfl
    | cons next lines =>
      have later := ih (List.cons_ne_nil next lines) hlines (Utf8.decodeLossy line :: found)
      rw [ofLines, List.intercalate_cons_cons, List.append_assoc, decodeLossy_line,
        headerLinesFrom_append [] found (lineEnd_not_shown hline)]
      rw [ofLines] at later
      rw [List.reverse_nil, List.nil_append, later]
      simp

/-- **The lines of a block are found again.** -/
theorem headerLines_ofLines {lines : List (List UInt8)} (nonempty : lines ≠ [])
    (clean : ∀ line ∈ lines, ¬ [13, 10] <:+: line) :
    headerLines (Utf8.decodeLossy (ofLines lines)) = lines.map Utf8.decodeLossy :=
  headerLinesFrom_ofLines nonempty clean []

/-! ### The line that counts -/

/-- **The value of a line** is what is behind its first colon, if its name is in front. -/
theorem lengthValue?_decodeLossy_eq_some_iff {line : List UInt8} {text : List Char} :
    lengthValue? (Utf8.decodeLossy line) = some text ↔
      ∃ value, GivesLength line value ∧ trim (Utf8.decodeLossy value) = text := by
  have cut : splitFirst? ':' (Utf8.decodeLossy line) =
      (splitFirst? 58 line).map (Prod.map Utf8.decodeLossy Utf8.decodeLossy) :=
    @Utf8.splitFirst?_decodeLossy 58 (by decide) line
  rw [lengthValue?, cut]
  constructor
  · intro h
    cases sides : splitFirst? 58 line with
    | none =>
      rw [sides] at h
      contradiction
    | some both =>
      obtain ⟨name, value⟩ := both
      obtain ⟨clean, hline⟩ := splitFirst?_eq_some_iff.mp sides
      simp only [sides, Option.map_some, Prod.map, Option.bind_eq_bind, Option.bind_some,
        Option.ite_none_right_eq_some, Option.some.injEq] at h
      exact ⟨value, ⟨name, hline, clean, h.1⟩, h.2⟩
  · rintro ⟨value, ⟨name, hline, clean, named⟩, rfl⟩
    rw [splitFirst?_eq_some_iff.mpr ⟨clean, hline⟩]
    simp only [Option.map_some, Prod.map, Option.bind_eq_bind, Option.bind_some, named, if_true]

theorem lengthValue?_decodeLossy_eq_none_iff {line : List UInt8} :
    lengthValue? (Utf8.decodeLossy line) = none ↔ ∀ value, ¬ GivesLength line value := by
  rw [Option.eq_none_iff_forall_ne_some]
  constructor
  · intro none value gives
    exact none _ (lengthValue?_decodeLossy_eq_some_iff.mpr ⟨value, gives, rfl⟩)
  · intro none text given
    obtain ⟨value, gives, -⟩ := lengthValue?_decodeLossy_eq_some_iff.mp given
    exact none value gives

/-- **The first line that gives a length counts**, whatever stands in the others. -/
theorem contentLength_ofLines {before after : List (List UInt8)} {line value : List UInt8}
    (clean : ∀ other ∈ before ++ line :: after, ¬ [13, 10] <:+: other)
    (first : ∀ other ∈ before, ∀ value, ¬ GivesLength other value)
    (gives : GivesLength line value) {n zeros : Nat} (unsigned : n ≤ maxUnsigned)
    (announced :
      trim (Utf8.decodeLossy value) = List.replicate zeros '0' ++ Nat.toDigits 10 n) :
    contentLength (ofLines (before ++ line :: after)) = .ok n := by
  have found : ((before ++ line :: after).map Utf8.decodeLossy).findSome? lengthValue? =
      some (List.replicate zeros '0' ++ Nat.toDigits 10 n) := by
    rw [List.findSome?_eq_some_iff]
    refine ⟨before.map Utf8.decodeLossy, Utf8.decodeLossy line, after.map Utf8.decodeLossy,
      List.map_append, ?_, ?_⟩
    · exact lengthValue?_decodeLossy_eq_some_iff.mpr ⟨value, gives, announced⟩
    · intro text hmem
      obtain ⟨other, hother, rfl⟩ := List.mem_map.mp hmem
      exact lengthValue?_decodeLossy_eq_none_iff.mpr (first other hother)
  rw [contentLength, headerLines_ofLines (by simp) clean, found]
  simp only [readUnsigned?_zeros unsigned]

namespace Scanner

/-! ### The frame behind it -/

section Spelt

variable {header : List UInt8} (ends : EndsFirst header) {body : String}
  (announced : contentLength header = .ok body.utf8ByteSize)
  (fits : body.utf8ByteSize ≤ maxBody)

include ends announced fits

/-- A frame is read whatever header block announces its body. -/
theorem push_announced :
    start.push (header ++ (emptyLine ++ utf8Bytes body)) =
      ([summarize (utf8Bytes body)], start) := by
  rw [← length_utf8Bytes] at announced fits
  rw [push_body ends (utf8Bytes body) announced fits (Nat.le_refl _), List.take_length,
    List.drop_length, push_start_nil]

/-- Up to its end no bytes are given up, unless inside the empty line and behind a block
that is almost too long. -/
theorem push_announced_front {front : List UInt8}
    (begins : front <+: header ++ (emptyLine ++ utf8Bytes body))
    (short : front.length ≤ maxHeader ∨ header.length + 4 ≤ front.length) :
    ∀ report ∈ (start.push front).1, ¬ GivesUp report := by
  rcases prefix_cases begins with inside | ⟨more, rfl, part⟩
  · have few : front.length ≤ maxHeader :=
      short.resolve_right (Nat.not_le_of_lt (Nat.lt_succ_of_le (length_header_part_le inside)))
    rw [push_header_part ends inside few]
    exact fun report hmem => absurd hmem List.not_mem_nil
  · rcases Nat.lt_or_ge more.length body.utf8ByteSize with less | whole
    · rw [push_body_part ends more announced fits less]
      exact fun report hmem => absurd hmem List.not_mem_nil
    · rw [← length_utf8Bytes] at whole
      rw [part.eq_of_length_le whole, push_announced ends announced fits]
      intro report hmem
      rw [List.mem_singleton.mp hmem]
      exact Segment.not_givesUp_report (.frame body fits)

theorem pushAll_announced {pieces : List (List UInt8)}
    (h : pieces.flatten = header ++ (emptyLine ++ utf8Bytes body))
    (short : ∀ front, front <+: pieces →
      front.flatten.length ≤ maxHeader ∨ header.length + 4 ≤ front.flatten.length) :
    start.pushAll pieces = ([summarize (utf8Bytes body)], start) := by
  have goesOn : ∀ front, front <+: pieces →
      ∀ report ∈ (start.push front.flatten).1, ¬ GivesUp report := by
    intro front begins
    refine push_announced_front ends announced fits ?_ (short front begins)
    obtain ⟨rest, rfl⟩ := begins
    rw [← h, List.flatten_append]
    exact List.prefix_append _ _
  rw [pushAll_eq_push_of_cuts goesOn, h, push_announced ends announced fits]

end Spelt

/-- **How a header is spelt changes nothing.**  A block of lines in which the first line
that gives a length announces the body, zeros in front or not, is read with the empty line
and the body as the frame that is written for the body: one report, and nothing held.
So it is in any pieces of which none ends inside the empty line and behind more bytes than
a header block may have. -/
theorem pushAll_spelt {before after : List (List UInt8)} {line value : List UInt8}
    {body : String} {zeros : Nat} (fits : body.utf8ByteSize ≤ 64 * 1024 * 1024)
    (clean : ∀ other ∈ before ++ line :: after, ¬ [13, 10] <:+: other)
    (short : (ofLines (before ++ line :: after)).length < 8 * 1024)
    (ends : EndsFirst (ofLines (before ++ line :: after)))
    (first : ∀ other ∈ before, ∀ value, ¬ GivesLength other value)
    (gives : GivesLength line value)
    (announced : trim (Utf8.decodeLossy value) =
      List.replicate zeros '0' ++ Nat.toDigits 10 body.utf8ByteSize) :
    let block := ofLines (before ++ line :: after)
    start.push (encode body) = ([summarize (utf8Bytes body)], start) ∧
      start.push (block ++ (emptyLine ++ utf8Bytes body)) = start.push (encode body) ∧
      (start.push (block ++ (emptyLine ++ utf8Bytes body))).2.pending = 0 ∧
      start.pushAll [block, emptyLine, utf8Bytes body] = start.push (encode body) ∧
      ∀ pieces : List (List UInt8),
        pieces.flatten = block ++ (emptyLine ++ utf8Bytes body) →
        (∀ front, front <+: pieces →
          front.flatten.length ≤ 8 * 1024 ∨ block.length + 4 ≤ front.flatten.length) →
        start.pushAll pieces = start.push (encode body) := by
  intro block
  have unsigned : body.utf8ByteSize ≤ maxUnsigned := Nat.le_trans fits (by decide)
  have read : contentLength block = .ok body.utf8ByteSize :=
    contentLength_ofLines clean first gives unsigned announced
  have written : start.push (encode body) = ([summarize (utf8Bytes body)], start) := by
    rw [encode_eq]
    exact push_announced (Segment.endsFirst_lengthLine _) (contentLength_lengthLine unsigned) fits
  have spelt := push_announced ends read fits
  refine ⟨written, ?_, ?_, ?_, ?_⟩
  · rw [written, spelt]
  · rw [spelt]
    rfl
  · rw [written]
    have apart : [block, emptyLine, utf8Bytes body].flatten =
        block ++ (emptyLine ++ utf8Bytes body) := by simp
    refine pushAll_announced ends read fits apart fun front begins => ?_
    rcases List.prefix_cons_iff.mp begins with rfl | ⟨later, rfl, inside⟩
    · exact Or.inl (Nat.zero_le _)
    · rcases List.prefix_cons_iff.mp inside with rfl | ⟨later, rfl, -⟩
      · left
        rw [List.flatten_singleton]
        exact Nat.le_of_lt short
      · right
        simp [emptyLine, block, Nat.add_assoc]
  · intro pieces h cuts
    rw [written]
    exact pushAll_announced ends read fits h cuts

/-- A line without a colon and one with half a character in front of it come first, and a
line that says another length comes last. -/
theorem pushAll_spelt_among_others :
    start.pushAll [ofLines ([utf8Bytes "Content-Length 9", [195, 58, 255, 13]] ++
          utf8Bytes "\u00a0CONTENT-length : \u3000002 " :: [utf8Bytes "Content-Length: 9"]),
        emptyLine, utf8Bytes "{}"] =
      ([summarize (utf8Bytes "{}")], start) := by
  have gives : GivesLength (utf8Bytes "\u00a0CONTENT-length : \u3000002 ")
      (utf8Bytes " \u3000002 ") :=
    ⟨utf8Bytes "\u00a0CONTENT-length ", by decide, by decide, by decide +kernel⟩
  have first : ∀ other ∈ [utf8Bytes "Content-Length 9", [195, 58, 255, 13]],
      ∀ value, ¬ GivesLength other value := by
    have none : ∀ other ∈ [utf8Bytes "Content-Length 9", [195, 58, 255, 13]],
        lengthValue? (Utf8.decodeLossy other) = none := by decide +kernel
    exact fun other hmem => lengthValue?_decodeLossy_eq_none_iff.mp (none other hmem)
  have zeros : trim (Utf8.decodeLossy (utf8Bytes " \u3000002 ")) =
      List.replicate 2 '0' ++ Nat.toDigits 10 "{}".utf8ByteSize := by decide +kernel
  obtain ⟨written, -, -, apart, -⟩ :=
    @pushAll_spelt _ [utf8Bytes "Content-Length: 9"] _ _ "{}" 2 (by decide) (by decide)
      (by decide) (by decide) first gives zeros
  exact apart.trans written

end Scanner

end Frame

end LiveCoding
