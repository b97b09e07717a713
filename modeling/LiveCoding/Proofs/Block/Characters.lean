import LiveCoding.Proofs.Block.Context
import LiveCoding.Proofs.Text.Boundary
import Mathlib.Order.Bounds.Defs

/-!
# Blocks of a text and of its bytes

`Block.locate` reads bytes, and a text is made of characters.  Parentheses are ASCII, so
no byte of a longer character is one of them, and the scans over the bytes of a text
find what the same scans find over its characters.  The cursor of the latter counts
characters: one inside a longer character is taken behind it, and as no part of that
character is a bracket, it makes no difference on which of its bytes the cursor stood.

## Main Definitions

* `Utf8.charsReaching`: an offset rounded up to the next place between characters.
* `Span.inBytes`: the bytes of a span of characters.

## Main Statements

* `Utf8.isLeast_charsReaching`: what rounding up gives.
* `Block.balancedFrom_encode`: brackets are balanced in characters and in bytes alike.
* `Block.Around.exists_chars`, `Block.Around.exists_bytes`: a block cuts a text and its
  bytes at the same places.
* `Block.locate_over_characters`: the block of a text by its characters.
-/

namespace LiveCoding

namespace Utf8

/-! ### Rounding up -/

/-- How many characters lead to the first place between characters that is not in front
of a byte offset; one more than there are if the offset is past the end. -/
def charsReaching : Nat → List Char → Nat
  | 0, _ => 0
  | _ + 1, [] => 1
  | offset + 1, c :: rest => charsReaching (offset + 1 - c.utf8Size) rest + 1

@[simp]
theorem charsReaching_zero (text : List Char) : charsReaching 0 text = 0 := by
  cases text <;> rfl

theorem charsReaching_cons {offset : Nat} (h : 0 < offset) (c : Char) (rest : List Char) :
    charsReaching offset (c :: rest) = charsReaching (offset - c.utf8Size) rest + 1 := by
  obtain ⟨offset, rfl⟩ := Nat.exists_eq_succ_of_ne_zero (Nat.ne_of_gt h)
  rfl

/-- Past the end there is no place. -/
theorem charsReaching_of_lt {offset : Nat} {text : List Char} (h : size text < offset) :
    charsReaching offset text = text.length + 1 := by
  have pos : 0 < offset := Nat.zero_lt_of_lt h
  induction text generalizing offset with
  | nil =>
    obtain ⟨offset, rfl⟩ := Nat.exists_eq_succ_of_ne_zero (Nat.ne_of_gt pos)
    rfl
  | cons c rest ih =>
    rw [size_cons] at h
    rw [charsReaching_cons pos, ih (by omega) (by omega), List.length_cons]

/-- All places in front of the one that is reached are in front of the offset. -/
theorem size_take_lt {n offset : Nat} {text : List Char} (h : n < charsReaching offset text) :
    size (text.take n) < offset := by
  have pos : 0 < offset := by
    rcases Nat.eq_zero_or_pos offset with rfl | pos
    · simp at h
    · exact pos
  induction text generalizing n offset with
  | nil => simpa using pos
  | cons c rest ih =>
    cases n with
    | zero => simpa using pos
    | succ n =>
      rw [charsReaching_cons pos] at h
      have later : 0 < offset - c.utf8Size := by
        by_contra none
        rw [Nat.eq_zero_of_not_pos none, charsReaching_zero] at h
        omega
      have := ih (Nat.lt_of_succ_lt_succ h) later
      rw [List.take_succ_cons, size_cons]
      omega

/-- Behind a cut, rounding up goes on from there. -/
theorem charsReaching_size_add (before after : List Char) (n : Nat) :
    charsReaching (size before + n) (before ++ after) = before.length + charsReaching n after := by
  induction before with
  | nil => simp
  | cons c before ih =>
    have pos := c.utf8Size_pos
    rw [List.cons_append, size_cons, charsReaching_cons (by omega),
      show c.utf8Size + size before + n - c.utf8Size = size before + n by omega, ih,
      List.length_cons]
    omega

/-- Rounding up does not look further than the offset. -/
theorem charsReaching_append {offset : Nat} {text : List Char} (h : offset ≤ size text)
    (more : List Char) : charsReaching offset (text ++ more) = charsReaching offset text := by
  induction text generalizing offset with
  | nil =>
    obtain rfl := Nat.le_zero.mp h
    simp
  | cons c rest ih =>
    rcases Nat.eq_zero_or_pos offset with rfl | pos
    · simp
    · rw [size_cons] at h
      rw [List.cons_append, charsReaching_cons pos, charsReaching_cons pos, ih (by omega)]

/-- **Rounding up** adds to the bytes in front of an offset at most a part of one character,
and a character with a place inside it is none of ASCII. -/
theorem encode_take_charsReaching {offset : Nat} {text : List Char} (h : offset ≤ size text) :
    ∃ part, encode (text.take (charsReaching offset text)) = (encode text).take offset ++ part ∧
      ∀ b ∈ part, 0x80 ≤ b.toNat := by
  induction text generalizing offset with
  | nil =>
    obtain rfl := Nat.le_zero.mp h
    exact ⟨[], by simp⟩
  | cons c rest ih =>
    rcases Nat.eq_zero_or_pos offset with rfl | pos
    · exact ⟨[], by simp⟩
    rw [size_cons] at h
    rw [charsReaching_cons pos, List.take_succ_cons, encode_cons, encode_cons, List.take_append,
      String.length_utf8EncodeChar]
    by_cases inside : offset < c.utf8Size
    · -- the offset is on one of the later bytes of the character
      refine ⟨(String.utf8EncodeChar c).drop offset, ?_, ?_⟩
      · rw [Nat.sub_eq_zero_of_le (Nat.le_of_lt inside), charsReaching_zero]
        simp
      · intro b hb
        refine le_of_mem_encodeChar ?_ (List.mem_of_mem_drop hb)
        by_contra low
        have one := congrArg List.length (encodeChar_ascii (Nat.lt_of_not_le low))
        rw [String.length_utf8EncodeChar, List.length_singleton] at one
        omega
    · have later : offset - c.utf8Size ≤ size rest := by omega
      obtain ⟨part, hpart, high⟩ := ih later
      have whole : (String.utf8EncodeChar c).length ≤ offset := by
        rw [String.length_utf8EncodeChar]
        omega
      refine ⟨part, ?_, high⟩
      rw [hpart, List.take_of_length_le whole, List.append_assoc]

/-- **What rounding up gives**: the first place between characters that is not in front of
the offset. -/
theorem isLeast_charsReaching {offset : Nat} {text : List Char} (h : offset ≤ size text) :
    IsLeast {n | offset ≤ size (text.take n)} (charsReaching offset text) := by
  constructor
  · obtain ⟨part, hpart, -⟩ := encode_take_charsReaching h
    have hlength := congrArg List.length hpart
    rw [length_encode, List.length_append, List.length_take, length_encode] at hlength
    show offset ≤ size _
    omega
  · intro n hn
    by_contra front
    exact absurd (size_take_lt (Nat.lt_of_not_le front)) (Nat.not_lt_of_le hn)

theorem charsReaching_le_length {offset : Nat} {text : List Char} (h : offset ≤ size text) :
    charsReaching offset text ≤ text.length := by
  apply (isLeast_charsReaching h).2
  show offset ≤ size _
  rwa [List.take_length]

end Utf8

/-- The bytes of a span of characters. -/
def Span.inBytes (text : List Char) (span : Span) : Span :=
  ⟨Utf8.size (text.take span.start), Utf8.size (text.take span.stop)⟩

namespace Block

/-! ### Brackets in characters and in bytes -/

theorem parenthesis_ne : '(' ≠ ')' := by decide

/-- Bytes above ASCII are no brackets. -/
theorem not_mem_of_high {part : List UInt8} (high : ∀ b ∈ part, 0x80 ≤ b.toNat) :
    opening ∉ part ∧ closing ∉ part := by
  constructor
  · intro hmem
    exact absurd (high _ hmem) (by decide)
  · intro hmem
    exact absurd (high _ hmem) (by decide)

/-- The bytes of a character that is no bracket are no brackets. -/
theorem not_mem_encodeChar {c : Char} (hopening : c ≠ '(') (hclosing : c ≠ ')') :
    opening ∉ String.utf8EncodeChar c ∧ closing ∉ String.utf8EncodeChar c := by
  have bytes : Utf8.encode [c] = String.utf8EncodeChar c := by
    rw [Utf8.encode_cons, Utf8.encode_nil, List.append_nil]
  rw [← bytes]
  constructor
  · intro hmem
    have := (Utf8.mem_encode_ascii (c := '(') (by decide) [c]).mp hmem
    exact hopening (List.mem_singleton.mp this).symm
  · intro hmem
    have := (Utf8.mem_encode_ascii (c := ')') (by decide) [c]).mp hmem
    exact hclosing (List.mem_singleton.mp this).symm

theorem encode_cons_opening (text : List Char) :
    Utf8.encode ('(' :: text) = opening :: Utf8.encode text := rfl

theorem encode_cons_closing (text : List Char) :
    Utf8.encode (')' :: text) = closing :: Utf8.encode text := rfl

/-- **Brackets are balanced in the bytes of a text if and only if they are in the text.** -/
theorem balancedFrom_encode (depth : Nat) (text : List Char) :
    BalancedFrom opening closing depth (Utf8.encode text) ↔ BalancedFrom '(' ')' depth text := by
  induction text generalizing depth with
  | nil => rw [Utf8.encode_nil, balancedFrom_nil, balancedFrom_nil]
  | cons c rest ih =>
    by_cases hopening : c = '('
    · subst hopening
      rw [encode_cons_opening, balancedFrom_cons_up opening_ne_closing,
        balancedFrom_cons_up parenthesis_ne, ih]
    by_cases hclosing : c = ')'
    · subst hclosing
      rw [encode_cons_closing, balancedFrom_cons_down opening_ne_closing,
        balancedFrom_cons_down parenthesis_ne]
      simp only [ih]
    · obtain ⟨noOpening, noClosing⟩ := not_mem_encodeChar hopening hclosing
      rw [Utf8.encode_cons, balancedFrom_append_left noOpening noClosing,
        balancedFrom_cons_of_ne hopening hclosing, ih]

/-- Up to a place inside a character, brackets are balanced as they are up to its end. -/
theorem balancedFrom_take_encode {offset : Nat} {text : List Char} (h : offset ≤ Utf8.size text) :
    BalancedFrom opening closing 0 ((Utf8.encode text).take offset) ↔
      BalancedFrom '(' ')' 0 (text.take (Utf8.charsReaching offset text)) := by
  obtain ⟨part, hpart, high⟩ := Utf8.encode_take_charsReaching h
  obtain ⟨noOpening, noClosing⟩ := not_mem_of_high high
  rw [← balancedFrom_encode, hpart, balancedFrom_append_right noOpening noClosing]

/-! ### A block in characters and in bytes -/

/-- A text with a bracket of each kind, in bytes. -/
theorem encode_cut (before mid after : List Char) :
    Utf8.encode (before ++ '(' :: mid ++ ')' :: after) =
      Utf8.encode before ++ opening :: Utf8.encode mid ++ closing :: Utf8.encode after := by
  rw [Utf8.encode_append, Utf8.encode_append, encode_cons_opening, encode_cons_closing]

/-- The byte of an opening parenthesis cuts the text at one. -/
theorem exists_cut_of_opening {text : List Char} {front back : List UInt8}
    (h : Utf8.encode text = front ++ opening :: back) :
    ∃ before after, text = before ++ '(' :: after ∧ Utf8.encode before = front ∧
      Utf8.encode after = back :=
  Utf8.exists_cut_of_encode_eq h (by decide)

/-- The byte of a closing parenthesis cuts the text at one. -/
theorem exists_cut_of_closing {text : List Char} {front back : List UInt8}
    (h : Utf8.encode text = front ++ closing :: back) :
    ∃ before after, text = before ++ ')' :: after ∧ Utf8.encode before = front ∧
      Utf8.encode after = back :=
  Utf8.exists_cut_of_encode_eq h (by decide)

/-- The bytes of a text between parentheses. -/
theorem encode_enclosed (mid : List Char) :
    Utf8.encode ('(' :: (mid ++ [')'])) = opening :: (Utf8.encode mid ++ [closing]) := by
  rw [encode_cons_opening, Utf8.encode_append]
  rfl

/-- A pair of brackets in the bytes of a text, seen in its characters. -/
theorem IsPair.exists_cut {text : List Char} {o c : Nat} (pair : IsPair (Utf8.encode text) o c) :
    ∃ before mid after, text = before ++ ('(' :: (mid ++ [')']) ++ after) ∧
      Utf8.size before = o ∧ Utf8.size (before ++ '(' :: mid) = c := by
  obtain ⟨inRange, hclose⟩ := List.getElem?_eq_some_iff.mp pair.closes
  have bytes_eq : Utf8.encode text =
      (Utf8.encode text).take c ++ closing :: (Utf8.encode text).drop (c + 1) := by
    rw [← hclose, ← List.drop_eq_getElem_cons, List.take_append_drop]
  obtain ⟨whole, after, htext, hwhole, -⟩ := exists_cut_of_closing bytes_eq
  have whole_eq := hwhole.trans (take_eq_append pair.lt pair.opens)
  obtain ⟨before, mid, rfl, hbefore, -⟩ := exists_cut_of_opening whole_eq
  have hlt := pair.lt
  refine ⟨before, mid, after, by simpa using htext, ?_, ?_⟩
  · rw [← Utf8.length_encode, hbefore, List.length_take, Nat.min_eq_left (by omega)]
  · rw [← Utf8.length_encode, hwhole, List.length_take, Nat.min_eq_left (Nat.le_of_lt inRange)]

/-- Where the bytes of a text are cut by a block, its characters are. -/
theorem Around.exists_chars {text : List Char} {cursor : Nat} {before front back after : List UInt8}
    (around : Around opening closing (Utf8.encode text) cursor before front back after) :
    ∃ before' front' back' after',
      Around '(' ')' text (Utf8.charsReaching cursor text) before' front' back' after' ∧
        Utf8.encode before' = before ∧ Utf8.encode (front' ++ back') = front ++ back := by
  obtain ⟨text_eq, rfl, toCursor, balanced⟩ := around
  rw [List.append_assoc, List.cons_append] at text_eq
  obtain ⟨before', rest, rfl, rfl, hrest⟩ := exists_cut_of_opening text_eq
  obtain ⟨mid, after', rfl, hmid, -⟩ := exists_cut_of_closing hrest
  have hfront : front.length ≤ Utf8.size mid := by
    rw [← Utf8.length_encode, hmid, List.length_append]
    exact Nat.le_add_right _ _
  have hcursor : Utf8.charsReaching ((Utf8.encode before').length + 1 + front.length)
      (before' ++ '(' :: (mid ++ ')' :: after')) =
      before'.length + 1 + Utf8.charsReaching front.length mid := by
    have behind :=
      Utf8.charsReaching_size_add (before' ++ ['(']) (mid ++ ')' :: after') front.length
    rw [Utf8.charsReaching_append hfront, Utf8.size_append, List.length_append,
      List.append_assoc, List.singleton_append] at behind
    rw [Utf8.length_encode]
    exact behind
  refine ⟨before', mid.take (Utf8.charsReaching front.length mid),
    mid.drop (Utf8.charsReaching front.length mid), after', ⟨?_, ?_, ?_, ?_⟩, rfl, ?_⟩
  · rw [List.take_append_drop, List.append_assoc, List.cons_append]
  · rw [hcursor, List.length_take, Nat.min_eq_left (Utf8.charsReaching_le_length hfront)]
  · rw [← balancedFrom_take_encode hfront, hmid, List.take_left]
    exact toCursor
  · rw [List.take_append_drop, ← balancedFrom_encode, hmid]
    exact balanced
  · rw [List.take_append_drop, hmid]

/-- Where the characters of a text are cut by a block, its bytes are, for every cursor that
is rounded up to the one among the characters. -/
theorem Around.exists_bytes {text : List Char} {cursor : Nat} {before front back after : List Char}
    (around : Around '(' ')' text (Utf8.charsReaching cursor text) before front back after) :
    ∃ front' back',
      Around opening closing (Utf8.encode text) cursor (Utf8.encode before) front' back'
        (Utf8.encode after) ∧ Utf8.encode (front ++ back) = front' ++ back' := by
  have within : cursor ≤ Utf8.size text := by
    by_contra past
    have := around.cursor_le_length
    rw [Utf8.charsReaching_of_lt (Nat.lt_of_not_le past)] at this
    omega
  have htake : text.take before.length = before := by
    rw [around.text_eq, List.append_assoc, List.take_left]
  have toOpening : Utf8.size (before ++ ['(']) = Utf8.size before + 1 := Utf8.size_append ..
  -- the bracket is one byte, so a place behind the one in front of it is behind the bracket
  have behind : Utf8.size (before ++ ['(']) ≤ cursor := by
    have reached : before.length < Utf8.charsReaching cursor text := by
      rw [around.cursor_eq]
      omega
    have := Utf8.size_take_lt reached
    rw [htake] at this
    omega
  obtain ⟨n, hcursor⟩ := Nat.exists_eq_add_of_le behind
  obtain ⟨text_eq, cursor_eq, toCursor, balanced⟩ := around
  have whole : text = (before ++ ['(']) ++ (front ++ (back ++ ')' :: after)) := by
    rw [text_eq]
    simp
  have hfront : Utf8.charsReaching n (front ++ (back ++ ')' :: after)) = front.length := by
    rw [whole, hcursor, Utf8.charsReaching_size_add, List.length_append,
      List.length_singleton] at cursor_eq
    omega
  have hn : n ≤ Utf8.size front := by
    have inRest : n ≤ Utf8.size (front ++ (back ++ ')' :: after)) := by
      rw [whole, hcursor, Utf8.size_append (before ++ ['('])] at within
      omega
    have reached : n ≤ Utf8.size _ := (Utf8.isLeast_charsReaching inRest).1
    rwa [hfront, List.take_left] at reached
  rw [Utf8.charsReaching_append hn] at hfront
  refine ⟨(Utf8.encode front).take n, (Utf8.encode front).drop n ++ Utf8.encode back,
    ⟨?_, ?_, ?_, ?_⟩, ?_⟩
  · rw [text_eq, encode_cut, ← List.append_assoc ((Utf8.encode front).take n),
      List.take_append_drop, Utf8.encode_append]
  · rw [hcursor, toOpening, Utf8.length_encode, List.length_take, Utf8.length_encode,
      Nat.min_eq_left hn]
  · rw [balancedFrom_take_encode hn, hfront, List.take_length]
    exact toCursor
  · rw [← List.append_assoc, List.take_append_drop, ← Utf8.encode_append, balancedFrom_encode]
    exact balanced
  · rw [← List.append_assoc, List.take_append_drop, Utf8.encode_append]

/-- The span of a block in characters is that of its bytes. -/
theorem Around.inBytes_eq {text : List Char} {n : Nat} {before front back after : List Char}
    (around : Around '(' ')' text n before front back after) :
    Span.inBytes text ⟨before.length, before.length + (front ++ back).length + 2⟩ =
      ⟨(Utf8.encode before).length,
        (Utf8.encode before).length + (Utf8.encode (front ++ back)).length + 2⟩ := by
  have whole : text = (before ++ '(' :: (front ++ back) ++ [')']) ++ after := by
    rw [around.text_eq]
    simp
  have hstart : text.take before.length = before := by
    rw [around.text_eq, List.append_assoc, List.take_left]
  have hstop : text.take (before.length + (front ++ back).length + 2) =
      before ++ '(' :: (front ++ back) ++ [')'] := by
    rw [whole]
    refine List.take_left' ?_
    simp only [List.length_append, List.length_cons, List.length_nil]
    omega
  rw [Span.inBytes, Span.mk.injEq, hstart, hstop, ← Utf8.length_encode, ← Utf8.length_encode,
    encode_cut]
  refine ⟨rfl, ?_⟩
  simp only [List.length_append, List.length_cons, Utf8.encode_nil, List.length_nil]
  omega

/-- **The scans over bytes are those over characters**, with the cursor rounded up to the next
place between characters. -/
theorem locate_encode (text : List Char) (cursor : Nat) :
    locate (Utf8.encode text) cursor =
      (scan '(' ')' text (Utf8.charsReaching cursor text)).map (Span.inBytes text) := by
  apply Option.ext
  intro span
  rw [locate_eq_some_iff_around, Option.map_eq_some_iff]
  constructor
  · rintro ⟨before, front, back, after, around, rfl⟩
    obtain ⟨before', front', back', after', around', rfl, hmid⟩ := around.exists_chars
    refine ⟨_, (scan_eq_some_iff parenthesis_ne _ _ _).mpr
      ⟨before', front', back', after', around', rfl⟩, ?_⟩
    rw [around'.inBytes_eq, hmid]
  · rintro ⟨span', found, rfl⟩
    obtain ⟨before, front, back, after, around, rfl⟩ :=
      (scan_eq_some_iff parenthesis_ne _ _ _).mp found
    obtain ⟨front', back', around', hmid⟩ := around.exists_bytes
    refine ⟨Utf8.encode before, front', back', Utf8.encode after, around', ?_⟩
    rw [around.inBytes_eq, hmid]

/-- **The block of a text is text.**  Both ends of what is found are places between characters,
wherever the cursor stood, and the bytes between them are a text in parentheses.  It is what
the same two scans find over the characters of the text, with the cursor rounded up to the
next place between characters and the ends turned into offsets; past the end of the text
there is no such place, and nothing is found. -/
theorem locate_over_characters (text : String) (cursor : Nat) :
    (∀ span, locate (utf8Bytes text) cursor = some span →
      (String.Pos.Raw.mk span.start).IsValid text ∧ (String.Pos.Raw.mk span.stop).IsValid text ∧
        ∃ inner, Utf8.decode (span.bytes (utf8Bytes text)) = .ok ('(' :: (inner ++ [')']))) ∧
    locate (utf8Bytes text) cursor =
      (scan '(' ')' text.toList (Utf8.charsReaching cursor text.toList)).map
        (Span.inBytes text.toList) ∧
    (∀ bytes offset, locate bytes offset = scan opening closing bytes offset) ∧
    (cursor ≤ text.utf8ByteSize →
      IsLeast {n | cursor ≤ Utf8.size (text.toList.take n)}
        (Utf8.charsReaching cursor text.toList)) ∧
    (text.utf8ByteSize < cursor →
      text.toList.length < Utf8.charsReaching cursor text.toList) := by
  refine ⟨?_, locate_encode text.toList cursor, locate_eq_scan, ?_, ?_⟩
  · intro span found
    obtain ⟨o, c, rfl, pair⟩ := (locate_eq_some_iff _ cursor span).mp found
    obtain ⟨before, inner, after, htext, hstart, hstop⟩ := pair.toIsPair.exists_cut
    have toStop : Utf8.size (before ++ '(' :: (inner ++ [')'])) = c + 1 := by
      rw [← List.cons_append, ← List.append_assoc, Utf8.size_append, hstop]
      rfl
    refine ⟨?_, ?_, inner, ?_⟩
    · exact Utf8.isValid_iff_exists_cut.mpr ⟨before, _, by simpa using htext, hstart.symm⟩
    · exact Utf8.isValid_iff_exists_cut.mpr
        ⟨_, after, by simpa using htext, toStop.symm⟩
    · rw [Utf8.decode_eq_ok_iff, Span.bytes, utf8Bytes, htext]
      dsimp only
      rw [← hstart, ← toStop, Utf8.slice_encode]
  · intro within
    exact Utf8.isLeast_charsReaching (by rwa [Utf8.size_toList])
  · intro past
    rw [Utf8.charsReaching_of_lt (by rwa [Utf8.size_toList])]
    exact Nat.lt_succ_self _

/-- The block around a cursor on the second byte of a letter. -/
theorem locate_over_characters_inside_letter :
    locate (utf8Bytes "ä(öü)") 4 = some ⟨2, 8⟩ ∧ (String.Pos.Raw.mk 8).IsValid "ä(öü)" ∧
      scan '(' ')' "ä(öü)".toList 3 = some ⟨1, 5⟩ ∧
      Utf8.charsReaching 4 "ä(öü)".toList = 3 := by
  have found : locate (utf8Bytes "ä(öü)") 4 = some ⟨2, 8⟩ := by decide
  have reached : Utf8.charsReaching 4 "ä(öü)".toList = 3 := by decide
  obtain ⟨valid, -, -, -, -⟩ := locate_over_characters "ä(öü)" 4
  exact ⟨found, (valid _ found).2.1, by decide, reached⟩

end Block

end LiveCoding
