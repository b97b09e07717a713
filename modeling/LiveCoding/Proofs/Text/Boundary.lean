import LiveCoding.Proofs.Text.Utf8

/-!
# Places between characters

An offset counts bytes, and between two bytes of one character there is no place to
cut a text.  The offsets that are such places are those of the form `size before`
for a text `before ++ after`, and that is how they are spoken of here: not as
numbers with a property, but as cuts of the text.  At a cut, counting characters
within so many bytes is counting those in front of it.

## Main Statements

* `Utf8.charsWithin_size_append`: the characters in front of a cut.
* `Utf8.takeWithin_size_append`, `Utf8.dropWithin_size_append`: the two sides of it.
* `Utf8.prefix_of_size_le`: of two cuts the one at the lesser offset is in front.
* `Utf8.splitAtByte?_size_append`: a text is split at a cut.
* `Utf8.isValid_iff_exists_cut`: the places of a string are its cuts.
* `Utf8.slice_encode`: two cuts of the text are cuts of its bytes.
-/

namespace LiveCoding

namespace Utf8

/-! ### Counting characters -/

private theorem charsWithinFrom_eq (count limit : Nat) (text : List Char) :
    charsWithinFrom count limit text = count + charsWithin limit text := by
  unfold charsWithin
  induction text generalizing count limit with
  | nil => rfl
  | cons c rest ih =>
    rw [charsWithinFrom, charsWithinFrom]
    split
    · rw [ih, ih (0 + 1)]
      omega
    · rfl

theorem charsWithin_cons_of_le {c : Char} {limit : Nat} (h : c.utf8Size ≤ limit)
    (rest : List Char) :
    charsWithin limit (c :: rest) = charsWithin (limit - c.utf8Size) rest + 1 := by
  rw [charsWithin, charsWithinFrom, if_pos h, charsWithinFrom_eq]
  omega

theorem charsWithin_cons_of_lt {c : Char} {limit : Nat} (h : limit < c.utf8Size)
    (rest : List Char) : charsWithin limit (c :: rest) = 0 := by
  rw [charsWithin, charsWithinFrom, if_neg (Nat.not_le_of_lt h)]

/-- No character is within no bytes. -/
@[simp]
theorem charsWithin_zero (text : List Char) : charsWithin 0 text = 0 := by
  cases text with
  | nil => rfl
  | cons c rest => exact charsWithin_cons_of_lt c.utf8Size_pos rest

/-- The characters in front of a cut, and those within so many bytes behind it. -/
theorem charsWithin_size_add (before after : List Char) (n : Nat) :
    charsWithin (size before + n) (before ++ after) = before.length + charsWithin n after := by
  induction before with
  | nil => simp
  | cons c before ih =>
    rw [List.cons_append, size_cons, charsWithin_cons_of_le (by omega),
      show c.utf8Size + size before + n - c.utf8Size = size before + n by omega, ih,
      List.length_cons]
    omega

/-- **At a cut**, the characters counted are those in front of it. -/
theorem charsWithin_size_append (before after : List Char) :
    charsWithin (size before) (before ++ after) = before.length := by
  simpa using charsWithin_size_add before after 0

theorem takeWithin_size_append (before after : List Char) :
    takeWithin (size before) (before ++ after) = before := by
  rw [takeWithin, charsWithin_size_append, List.take_left]

theorem dropWithin_size_append (before after : List Char) :
    dropWithin (size before) (before ++ after) = after := by
  rw [dropWithin, charsWithin_size_append, List.drop_left]

theorem charsWithin_le_length (limit : Nat) (text : List Char) :
    charsWithin limit text ≤ text.length := by
  induction text generalizing limit with
  | nil => exact Nat.le_refl 0
  | cons c rest ih =>
    by_cases h : c.utf8Size ≤ limit
    · rw [charsWithin_cons_of_le h, List.length_cons]
      exact Nat.succ_le_succ (ih _)
    · rw [charsWithin_cons_of_lt (Nat.lt_of_not_le h)]
      exact Nat.zero_le _

/-- More bytes hold no fewer characters. -/
theorem charsWithin_mono {limit limit' : Nat} (h : limit ≤ limit') (text : List Char) :
    charsWithin limit text ≤ charsWithin limit' text := by
  induction text generalizing limit limit' with
  | nil => exact Nat.le_refl 0
  | cons c rest ih =>
    by_cases within : c.utf8Size ≤ limit
    · rw [charsWithin_cons_of_le within, charsWithin_cons_of_le (Nat.le_trans within h)]
      exact Nat.succ_le_succ (ih (Nat.sub_le_sub_right h _))
    · rw [charsWithin_cons_of_lt (Nat.lt_of_not_le within)]
      exact Nat.zero_le _

/-- The characters within so many bytes take no more than those bytes. -/
theorem size_take_charsWithin_le (limit : Nat) (text : List Char) :
    size (text.take (charsWithin limit text)) ≤ limit := by
  induction text generalizing limit with
  | nil => exact Nat.zero_le _
  | cons c rest ih =>
    by_cases h : c.utf8Size ≤ limit
    · have fits := ih (limit - c.utf8Size)
      rw [charsWithin_cons_of_le h, List.take_succ_cons, size_cons]
      omega
    · rw [charsWithin_cons_of_lt (Nat.lt_of_not_le h)]
      exact Nat.zero_le _

/-- Columns of a text by the bytes in front of them: those past its end are one. -/
theorem size_take_le_iff (text : List Char) (m n : Nat) :
    size (text.take m) ≤ size (text.take n) ↔ min m text.length ≤ n := by
  induction text generalizing m n with
  | nil => simp
  | cons c rest ih =>
    cases m with
    | zero => simp
    | succ m =>
      cases n with
      | zero =>
        have := c.utf8Size_pos
        rw [List.take_succ_cons, List.take_zero, size_cons, size_nil, List.length_cons]
        omega
      | succ n =>
        have behind := ih m n
        rw [List.take_succ_cons, List.take_succ_cons, size_cons, size_cons, List.length_cons]
        omega

/-- Every character takes a byte at least. -/
theorem length_le_size (text : List Char) : text.length ≤ size text := by
  induction text with
  | nil => exact Nat.le_refl 0
  | cons c rest ih =>
    have := c.utf8Size_pos
    rw [List.length_cons, size_cons]
    omega

/-! ### Two cuts of one text -/

theorem eq_nil_of_size_eq_zero {text : List Char} (h : size text = 0) : text = [] := by
  cases text with
  | nil => rfl
  | cons c rest =>
    have := c.utf8Size_pos
    rw [size_cons] at h
    omega

theorem size_le_of_prefix {before text : List Char} (h : before <+: text) :
    size before ≤ size text := by
  obtain ⟨after, rfl⟩ := h
  rw [size_append]
  exact Nat.le_add_right _ _

/-- Of two cuts of a text, the one at the lesser offset is in front. -/
theorem prefix_of_size_le {before before' text : List Char} (h : before <+: text)
    (h' : before' <+: text) (hle : size before ≤ size before') : before <+: before' := by
  rcases List.prefix_or_prefix_of_prefix h h' with front | front
  · exact front
  · obtain ⟨more, rfl⟩ := front
    rw [size_append] at hle
    obtain rfl : more = [] := eq_nil_of_size_eq_zero (by omega)
    exact ⟨[], by rw [List.append_nil, List.append_nil]⟩

/-- There is one cut at an offset. -/
theorem cut_unique {before before' after after' : List Char}
    (h : before ++ after = before' ++ after') (hsize : size before = size before') :
    before = before' ∧ after = after' := by
  obtain ⟨more, rfl⟩ := prefix_of_size_le ⟨after, h⟩ ⟨after', rfl⟩ (Nat.le_of_eq hsize)
  rw [size_append] at hsize
  obtain rfl : more = [] := eq_nil_of_size_eq_zero (by omega)
  simpa using h

/-! ### Splitting at a cut -/

private theorem splitAtByteFrom?_size_append (behind before after : List Char) :
    splitAtByteFrom? behind (size before) (before ++ after) =
      some (behind.reverse ++ before, after) := by
  induction before generalizing behind with
  | nil => simp [splitAtByteFrom?]
  | cons c before ih =>
    obtain ⟨n, hn⟩ : ∃ n, size (c :: before) = n + 1 :=
      ⟨size (c :: before) - 1, by have := c.utf8Size_pos; rw [size_cons]; omega⟩
    have hrest : n + 1 - c.utf8Size = size before := by
      rw [← hn, size_cons]
      omega
    rw [hn, List.cons_append, splitAtByteFrom?, if_pos (by rw [← hn, size_cons]; omega), hrest, ih]
    simp

/-- **At a cut** a text is split into the two sides of it. -/
theorem splitAtByte?_size_append (before after : List Char) :
    splitAtByte? (size before) (before ++ after) = some (before, after) := by
  rw [splitAtByte?, splitAtByteFrom?_size_append, List.reverse_nil, List.nil_append]

/-! ### Cuts of the bytes -/

theorem size_toList (text : String) : size text.toList = text.utf8ByteSize := by
  rw [← length_utf8Bytes, utf8Bytes, length_encode]

/-- An offset is a place in a string if and only if it is a cut. -/
theorem isValid_iff_exists_cut {text : String} {offset : Nat} :
    (String.Pos.Raw.mk offset).IsValid text ↔
      ∃ before after, text.toList = before ++ after ∧ offset = size before := by
  rw [String.Pos.Raw.isValid_iff_exists_append]
  constructor
  · rintro ⟨before, after, rfl, hoffset⟩
    refine ⟨before.toList, after.toList, String.toList_append, ?_⟩
    rw [size_toList]
    exact congrArg String.Pos.Raw.byteIdx hoffset
  · rintro ⟨before, after, htext, rfl⟩
    refine ⟨String.ofList before, String.ofList after, ?_, ?_⟩
    · rw [← String.ofList_append, ← htext, String.ofList_toList]
    · rw [← String.toList_ofList (l := before), size_toList, String.toList_ofList]
      rfl

/-- The bytes between two cuts are those of the text between them. -/
theorem slice_encode (before mid after : List Char) :
    ((encode (before ++ (mid ++ after))).take (size (before ++ mid))).drop (size before) =
      encode mid := by
  rw [← List.append_assoc, encode_append, ← length_encode (before ++ mid), List.take_left,
    encode_append, ← length_encode before, List.drop_left]

/-- A byte below 128 in the bytes of a text cuts the text. -/
theorem exists_cut_of_encode_eq {text : List Char} {front back : List UInt8} {b : UInt8}
    (h : encode text = front ++ b :: back) (ascii : b.toNat < 0x80) :
    ∃ before after, text = before ++ Char.ofNat b.toNat :: after ∧ encode before = front ∧
      encode after = back := by
  have hb : (encode text)[front.length]? = some b := by
    rw [h]
    simp
  obtain ⟨before, after, rfl, hsize⟩ := exists_eq_append_of_getElem?_ascii hb ascii
  rw [encode_append, encode_cons, encodeChar_of_one ascii] at h
  obtain ⟨hfront, hback⟩ := List.append_inj h (by rw [length_encode, hsize])
  exact ⟨before, after, rfl, hfront, (List.cons.inj hback).2⟩

end Utf8

end LiveCoding
