import LiveCoding.Text.Utf8
import Mathlib.Data.List.Basic
import Mathlib.Tactic.Common

/-!
# UTF-8 read and written

What is written as UTF-8 is read back, by the strict reader as by the forgiving one,
and the places where characters begin are told apart from those inside a character
by the bytes alone: a byte below 128 is a character.

## Main Statements

* `Utf8.decode_encode`, `Utf8.decodeLossy_encode`: both readers undo the writer.
* `Utf8.decode_eq_ok_iff`: the strict reader accepts nothing else.
* `Utf8.cut_pieces`: no byte is lost between the pieces.
* `Utf8.encode_injective`: a text is known from its bytes.
* `Utf8.exists_eq_append_of_getElem?_ascii`: where a byte below 128 stands, a
  character begins, and it is that byte.

## Design Notes

A character takes one to four bytes, and the four forms are gone through only where
one character is written, read, or written again after reading (`encodeChar_of_two`
and its likes).  Whole texts go by `piecesFrom_encodeChar` one way and by `Cut` the
other, which say the same of every form.
-/

namespace LiveCoding

namespace Utf8

/-! ## Writing one character -/

/-- The bytes of a character are as many as its size says. -/
theorem length_encode (text : List Char) : (encode text).length = size text := by
  induction text with
  | nil => rfl
  | cons c rest ih =>
    rw [encode_cons, List.length_append, String.length_utf8EncodeChar, ih, size_cons]

/-- The four forms of a character. -/
private theorem encodeChar_eq (c : Char) :
    String.utf8EncodeChar c =
      if c.toNat ≤ 0x7f then [.ofNat c.toNat]
      else if c.toNat ≤ 0x7ff then
        [.ofNat (c.toNat / 64 % 0x20 + 0xc0), .ofNat (c.toNat % 0x40 + 0x80)]
      else if c.toNat ≤ 0xffff then
        [.ofNat (c.toNat / 4096 % 0x10 + 0xe0), .ofNat (c.toNat / 64 % 0x40 + 0x80),
          .ofNat (c.toNat % 0x40 + 0x80)]
      else
        [.ofNat (c.toNat / 262144 % 0x08 + 0xf0), .ofNat (c.toNat / 4096 % 0x40 + 0x80),
          .ofNat (c.toNat / 64 % 0x40 + 0x80), .ofNat (c.toNat % 0x40 + 0x80)] := rfl

private theorem toNat_ofNat {n : Nat} (h : n < 256) : (UInt8.ofNat n).toNat = n := by
  rw [UInt8.toNat_ofNat']
  exact Nat.mod_eq_of_lt h

/-- A character of ASCII is one byte. -/
theorem encodeChar_ascii {c : Char} (h : c.toNat < 0x80) :
    String.utf8EncodeChar c = [.ofNat c.toNat] := by
  rw [encodeChar_eq, if_pos (by omega)]

/-- A text of ASCII takes as many bytes as it has characters. -/
theorem length_encode_ascii {text : List Char} (ascii : ∀ c ∈ text, c.toNat < 0x80) :
    (encode text).length = text.length := by
  induction text with
  | nil => rfl
  | cons c rest ih =>
    have hc := encodeChar_ascii (ascii c List.mem_cons_self)
    have hrest := ih fun d hd => ascii d (List.mem_cons_of_mem c hd)
    rw [encode_cons, hc, List.length_append, hrest, List.length_singleton, List.length_cons,
      Nat.add_comm]

/-- A character above ASCII has no byte below 128. -/
theorem le_of_mem_encodeChar {c : Char} (h : 0x80 ≤ c.toNat) {b : UInt8}
    (hb : b ∈ String.utf8EncodeChar c) : 0x80 ≤ b.toNat := by
  rw [encodeChar_eq, if_neg (by omega)] at hb
  split at hb
  · simp only [List.mem_cons, List.not_mem_nil, or_false] at hb
    rcases hb with rfl | rfl <;> rw [toNat_ofNat (by omega)] <;> omega
  split at hb
  · simp only [List.mem_cons, List.not_mem_nil, or_false] at hb
    rcases hb with rfl | rfl | rfl <;> rw [toNat_ofNat (by omega)] <;> omega
  · simp only [List.mem_cons, List.not_mem_nil, or_false] at hb
    rcases hb with rfl | rfl | rfl | rfl <;> rw [toNat_ofNat (by omega)] <;> omega

/-! ## Reading one character -/

/-- Only bytes from C2 on begin a longer character. -/
theorem Lead.le_of_ofByte? {b : UInt8} {lead : Lead} (h : Lead.ofByte? b = some lead) :
    0xC2 ≤ b.toNat := by
  unfold Lead.ofByte? at h
  by_contra low
  rw [if_pos (by omega)] at h
  contradiction

theorem piecesFrom_one (found : List Piece) {b : UInt8} (rest : List UInt8)
    (h : b.toNat < 0x80) :
    piecesFrom found (b :: rest) = piecesFrom (.char (Char.ofNat b.toNat) :: found) rest := by
  rw [piecesFrom, if_pos h]

theorem piecesFrom_two (found : List Piece) {b₀ b₁ : UInt8} (rest : List UInt8)
    {lead : Lead} (hlead : Lead.ofByte? b₀ = some lead) (hfollowing : lead.following = 1)
    (h₁ : lead.admits b₁ = true) :
    piecesFrom found (b₀ :: b₁ :: rest) =
      piecesFrom (.char (Char.ofNat (extend lead.bits b₁)) :: found) rest := by
  have high := Lead.le_of_ofByte? hlead
  rw [piecesFrom, if_neg (by omega)]
  simp only [hlead, h₁, hfollowing, Bool.not_true, Bool.false_eq_true, if_false, if_true]

theorem piecesFrom_three (found : List Piece) {b₀ b₁ b₂ : UInt8} (rest : List UInt8)
    {lead : Lead} (hlead : Lead.ofByte? b₀ = some lead) (hfollowing : lead.following = 2)
    (h₁ : lead.admits b₁ = true) (h₂ : isContinuation b₂ = true) :
    piecesFrom found (b₀ :: b₁ :: b₂ :: rest) =
      piecesFrom (.char (Char.ofNat (extend (extend lead.bits b₁) b₂)) :: found) rest := by
  have high := Lead.le_of_ofByte? hlead
  rw [piecesFrom, if_neg (by omega)]
  simp only [hlead, h₁, h₂, hfollowing, Bool.not_true, Bool.false_eq_true, if_false, if_true,
    show (2 : Nat) ≠ 1 by decide]

theorem piecesFrom_four (found : List Piece) {b₀ b₁ b₂ b₃ : UInt8} (rest : List UInt8)
    {lead : Lead} (hlead : Lead.ofByte? b₀ = some lead) (hfollowing : lead.following = 3)
    (h₁ : lead.admits b₁ = true) (h₂ : isContinuation b₂ = true)
    (h₃ : isContinuation b₃ = true) :
    piecesFrom found (b₀ :: b₁ :: b₂ :: b₃ :: rest) =
      piecesFrom (.char (Char.ofNat (extend (extend (extend lead.bits b₁) b₂) b₃)) :: found)
        rest := by
  have high := Lead.le_of_ofByte? hlead
  rw [piecesFrom, if_neg (by omega)]
  simp only [hlead, h₁, h₂, h₃, hfollowing, Bool.not_true, Bool.false_eq_true, if_false,
    show (3 : Nat) ≠ 1 by decide, show (3 : Nat) ≠ 2 by decide]

/-- A byte behind the lead: its low six bits are the character's. -/
private theorem isContinuation_low (n : Nat) :
    isContinuation (.ofNat (n % 0x40 + 0x80)) = true := by
  simp only [isContinuation, toNat_ofNat (show n % 0x40 + 0x80 < 256 by omega), Bool.and_eq_true,
    decide_eq_true_eq]
  omega

private theorem extend_low (bits n : Nat) :
    extend bits (.ofNat (n % 0x40 + 0x80)) = bits * 64 + n % 64 := by
  rw [extend, toNat_ofNat (by omega)]
  omega

/-- The lead of two bytes. -/
private theorem exists_lead_two {n : Nat} (low : 0x7f < n) (high : n ≤ 0x7ff) :
    ∃ lead, Lead.ofByte? (.ofNat (n / 64 % 0x20 + 0xc0)) = some lead ∧ lead.following = 1 ∧
      lead.bits = n / 64 ∧ lead.admits (.ofNat (n % 0x40 + 0x80)) = true := by
  simp only [Lead.ofByte?, Lead.admits, toNat_ofNat (show n / 64 % 0x20 + 0xc0 < 256 by omega),
    toNat_ofNat (show n % 0x40 + 0x80 < 256 by omega)]
  rw [if_neg (by omega), if_pos (by omega)]
  exact ⟨_, rfl, rfl, by dsimp only; omega, by simp; omega⟩

/-- The lead of three bytes, for a character that is no surrogate. -/
private theorem exists_lead_three {n : Nat} (low : 0x7ff < n) (high : n ≤ 0xffff)
    (valid : n < 0xd800 ∨ 0xdfff < n) :
    ∃ lead, Lead.ofByte? (.ofNat (n / 4096 % 0x10 + 0xe0)) = some lead ∧ lead.following = 2 ∧
      lead.bits = n / 4096 ∧ lead.admits (.ofNat (n / 64 % 0x40 + 0x80)) = true := by
  simp only [Lead.ofByte?, Lead.admits,
    toNat_ofNat (show n / 4096 % 0x10 + 0xe0 < 256 by omega),
    toNat_ofNat (show n / 64 % 0x40 + 0x80 < 256 by omega)]
  rw [if_neg (by omega), if_neg (by omega)]
  -- the first and the surrogates' lead bytes bound the second byte more narrowly
  by_cases first : n / 4096 = 0
  · rw [if_pos (by omega)]
    exact ⟨_, rfl, rfl, by dsimp only; omega, by simp; omega⟩
  rw [if_neg (by omega)]
  by_cases surrogates : n / 4096 = 13
  · rw [if_pos (by omega)]
    exact ⟨_, rfl, rfl, by dsimp only; omega, by simp; omega⟩
  · rw [if_neg (by omega), if_pos (by omega)]
    exact ⟨_, rfl, rfl, by dsimp only; omega, by simp; omega⟩

/-- The lead of four bytes, for a character that is not past the last. -/
private theorem exists_lead_four {n : Nat} (low : 0xffff < n) (valid : n < 0x110000) :
    ∃ lead, Lead.ofByte? (.ofNat (n / 262144 % 0x08 + 0xf0)) = some lead ∧ lead.following = 3 ∧
      lead.bits = n / 262144 ∧ lead.admits (.ofNat (n / 4096 % 0x40 + 0x80)) = true := by
  simp only [Lead.ofByte?, Lead.admits,
    toNat_ofNat (show n / 262144 % 0x08 + 0xf0 < 256 by omega),
    toNat_ofNat (show n / 4096 % 0x40 + 0x80 < 256 by omega)]
  rw [if_neg (by omega), if_neg (by omega), if_neg (by omega), if_neg (by omega),
    if_neg (by omega)]
  -- so do the first and the last lead byte of this form
  by_cases first : n / 262144 = 0
  · rw [if_pos (by omega)]
    exact ⟨_, rfl, rfl, by dsimp only; omega, by simp; omega⟩
  rw [if_neg (by omega)]
  by_cases last : n / 262144 = 4
  · rw [if_neg (by omega), if_pos (by omega)]
    exact ⟨_, rfl, rfl, by dsimp only; omega, by simp; omega⟩
  · rw [if_pos (by omega)]
    exact ⟨_, rfl, rfl, by dsimp only; omega, by simp; omega⟩

/-- **One character is read back**, whatever stands behind its bytes. -/
theorem piecesFrom_encodeChar (found : List Piece) (c : Char) (rest : List UInt8) :
    piecesFrom found (String.utf8EncodeChar c ++ rest) =
      piecesFrom (.char c :: found) rest := by
  have valid : c.toNat < 0xd800 ∨ 0xdfff < c.toNat ∧ c.toNat < 0x110000 := c.valid
  rw [encodeChar_eq]
  split
  next one =>
    rw [List.singleton_append, piecesFrom_one, toNat_ofNat (by omega), Char.ofNat_toNat]
    rw [toNat_ofNat (by omega)]
    omega
  split
  next two =>
    obtain ⟨lead, hlead, hfollowing, hbits, h₁⟩ :=
      exists_lead_two (n := c.toNat) (by omega) two
    rw [List.cons_append, List.singleton_append, piecesFrom_two found rest hlead hfollowing h₁,
      extend_low, hbits, show c.toNat / 64 * 64 + c.toNat % 64 = c.toNat by omega,
      Char.ofNat_toNat]
  split
  next three =>
    obtain ⟨lead, hlead, hfollowing, hbits, h₁⟩ :=
      exists_lead_three (n := c.toNat) (by omega) three (by omega)
    rw [List.cons_append, List.cons_append, List.singleton_append,
      piecesFrom_three found rest hlead hfollowing h₁ (isContinuation_low _), extend_low,
      extend_low, hbits,
      show (c.toNat / 4096 * 64 + c.toNat / 64 % 64) * 64 + c.toNat % 64 = c.toNat by omega,
      Char.ofNat_toNat]
  next four =>
    obtain ⟨lead, hlead, hfollowing, hbits, h₁⟩ :=
      exists_lead_four (n := c.toNat) (by omega) (by omega)
    rw [List.cons_append, List.cons_append, List.cons_append, List.singleton_append,
      piecesFrom_four found rest hlead hfollowing h₁ (isContinuation_low _)
        (isContinuation_low _), extend_low, extend_low, extend_low, hbits,
      show ((c.toNat / 262144 * 64 + c.toNat / 4096 % 64) * 64 + c.toNat / 64 % 64) * 64 +
        c.toNat % 64 = c.toNat by omega, Char.ofNat_toNat]

/-! ## Reading a text -/

/-- A text in front of other bytes is cut into its characters. -/
theorem piecesFrom_encode_append (found : List Piece) (text : List Char) (rest : List UInt8) :
    piecesFrom found (encode text ++ rest) =
      piecesFrom ((text.map .char).reverse ++ found) rest := by
  induction text generalizing found with
  | nil => rfl
  | cons c text ih =>
    rw [encode_cons, List.append_assoc, piecesFrom_encodeChar, ih]
    simp

theorem pieces_encode (text : List Char) : pieces (encode text) = text.map .char := by
  have whole := piecesFrom_encode_append [] text []
  rw [List.append_nil, List.append_nil] at whole
  rw [pieces, whole, piecesFrom, List.reverse_reverse]

private theorem collect_map_char (index : Nat) (behind text : List Char) :
    collect index behind (text.map .char) = .ok (behind.reverse ++ text) := by
  induction text generalizing index behind with
  | nil => simp [collect]
  | cons c text ih =>
    rw [List.map_cons, collect, ih]
    simp

/-- **The strict reader undoes the writer.** -/
@[simp]
theorem decode_encode (text : List Char) : decode (encode text) = .ok text := by
  rw [decode, pieces_encode, collect_map_char]
  rfl

/-- **The forgiving reader undoes the writer.** -/
@[simp]
theorem decodeLossy_encode (text : List Char) : decodeLossy (encode text) = text := by
  rw [decodeLossy, pieces_encode, List.map_map]
  exact List.map_id text

/-- A text is known from its bytes. -/
theorem encode_injective : Function.Injective encode := by
  intro s t h
  have read := congrArg decode h
  rw [decode_encode, decode_encode] at read
  exact Except.ok.inj read

/-! ## Reading strictly -/

/-- The lead bytes of each length, and the second bytes that they allow. -/
theorem Lead.ofByte?_cases {b b₁ : UInt8} {lead : Lead}
    (h : Lead.ofByte? b = some lead) (h₁ : lead.admits b₁ = true) :
    (0x80 ≤ b₁.toNat ∧ b₁.toNat < 0xC0) ∧
      (lead.following = 1 ∧ lead.bits + 0xC0 = b.toNat ∧ 2 ≤ lead.bits ∧ lead.bits < 0x20 ∨
        lead.following = 2 ∧ lead.bits + 0xE0 = b.toNat ∧ lead.bits < 0x10 ∧
          (lead.bits = 0 → 0xA0 ≤ b₁.toNat) ∧ (lead.bits = 0xD → b₁.toNat < 0xA0) ∨
        lead.following = 3 ∧ lead.bits + 0xF0 = b.toNat ∧ lead.bits < 5 ∧
          (lead.bits = 0 → 0x90 ≤ b₁.toNat) ∧ (lead.bits = 4 → b₁.toNat < 0x90)) := by
  rw [Lead.admits, Bool.and_eq_true, decide_eq_true_eq, decide_eq_true_eq] at h₁
  simp only [Lead.ofByte?] at h
  repeat' split at h
  all_goals first
    | contradiction
    | obtain rfl := Option.some.inj h
      dsimp only at h₁ ⊢
      omega

private theorem toNat_charOfNat {n : Nat} (valid : n < 0xd800 ∨ 0xdfff < n ∧ n < 0x110000) :
    (Char.ofNat n).toNat = n := by
  rw [Char.ofNat, dif_pos valid]
  rfl

private theorem ofNat_eq {n : Nat} {b : UInt8} (h : n = b.toNat) : UInt8.ofNat n = b := by
  rw [h, UInt8.ofNat_toNat]

/-- A byte below 128 is what its character is written as. -/
theorem encodeChar_of_one {b : UInt8} (h : b.toNat < 0x80) :
    String.utf8EncodeChar (Char.ofNat b.toNat) = [b] := by
  have value : (Char.ofNat b.toNat).toNat = b.toNat := toNat_charOfNat (by omega)
  rw [encodeChar_ascii (by rwa [value]), value, UInt8.ofNat_toNat]

private theorem encodeChar_of_two {b₀ b₁ : UInt8} {lead : Lead}
    (hlead : Lead.ofByte? b₀ = some lead) (hfollowing : lead.following = 1)
    (h₁ : lead.admits b₁ = true) :
    String.utf8EncodeChar (Char.ofNat (extend lead.bits b₁)) = [b₀, b₁] := by
  have bounds := Lead.ofByte?_cases hlead h₁
  have value := toNat_charOfNat (n := extend lead.bits b₁) (by rw [extend]; omega)
  rw [encodeChar_eq, value, extend, if_neg (by omega), if_pos (by omega), ofNat_eq (b := b₀)
    (by omega), ofNat_eq (b := b₁) (by omega)]

private theorem encodeChar_of_three {b₀ b₁ b₂ : UInt8} {lead : Lead}
    (hlead : Lead.ofByte? b₀ = some lead) (hfollowing : lead.following = 2)
    (h₁ : lead.admits b₁ = true) (h₂ : isContinuation b₂ = true) :
    String.utf8EncodeChar (Char.ofNat (extend (extend lead.bits b₁) b₂)) = [b₀, b₁, b₂] := by
  have bounds := Lead.ofByte?_cases hlead h₁
  rw [isContinuation, Bool.and_eq_true, decide_eq_true_eq, decide_eq_true_eq] at h₂
  have value := toNat_charOfNat (n := extend (extend lead.bits b₁) b₂)
    (by rw [extend, extend]; omega)
  rw [encodeChar_eq, value, extend, extend, if_neg (by omega), if_neg (by omega),
    if_pos (by omega), ofNat_eq (b := b₀) (by omega), ofNat_eq (b := b₁) (by omega),
    ofNat_eq (b := b₂) (by omega)]

private theorem encodeChar_of_four {b₀ b₁ b₂ b₃ : UInt8} {lead : Lead}
    (hlead : Lead.ofByte? b₀ = some lead) (hfollowing : lead.following = 3)
    (h₁ : lead.admits b₁ = true) (h₂ : isContinuation b₂ = true)
    (h₃ : isContinuation b₃ = true) :
    String.utf8EncodeChar (Char.ofNat (extend (extend (extend lead.bits b₁) b₂) b₃)) =
      [b₀, b₁, b₂, b₃] := by
  have bounds := Lead.ofByte?_cases hlead h₁
  rw [isContinuation, Bool.and_eq_true, decide_eq_true_eq, decide_eq_true_eq] at h₂ h₃
  have value := toNat_charOfNat (n := extend (extend (extend lead.bits b₁) b₂) b₃)
    (by rw [extend, extend, extend]; omega)
  rw [encodeChar_eq, value, extend, extend, extend, if_neg (by omega), if_neg (by omega),
    if_neg (by omega), ofNat_eq (b := b₀) (by omega), ofNat_eq (b := b₁) (by omega),
    ofNat_eq (b := b₂) (by omega), ofNat_eq (b := b₃) (by omega)]

/-- Bytes and the pieces that they are cut into. -/
inductive Cut : List UInt8 → List Piece → Prop where
  | done : Cut [] []
  | char {c : Char} {front rest : List UInt8} {more : List Piece}
    (hfront : String.utf8EncodeChar c = front) (cut : Cut rest more) :
    Cut (front ++ rest) (.char c :: more)
  | invalid (front : List UInt8) {rest : List UInt8} {more : List Piece} (cut : Cut rest more) :
    Cut (front ++ rest) (.invalid front.length :: more)
  | cutOff (front : List UInt8) : Cut front [.cutOff front.length]

/-- One more piece in front of those that are found. -/
private theorem Cut.cons {found : List Piece} {piece : Piece} {bytes rest : List UInt8}
    (found_rest : ∃ more, piecesFrom (piece :: found) rest = (piece :: found).reverse ++ more ∧
      Cut rest more)
    (front : ∀ {more}, Cut rest more → Cut bytes (piece :: more)) :
    ∃ more, piecesFrom (piece :: found) rest = found.reverse ++ more ∧ Cut bytes more := by
  obtain ⟨more, hmore, cut⟩ := found_rest
  refine ⟨piece :: more, ?_, front cut⟩
  rw [hmore, List.reverse_cons, List.append_assoc, List.singleton_append]

private theorem exists_cut (found : List Piece) (bytes : List UInt8) :
    ∃ more, piecesFrom found bytes = found.reverse ++ more ∧ Cut bytes more := by
  fun_induction piecesFrom found bytes with
  | case1 found => exact ⟨[], (List.append_nil _).symm, .done⟩
  | case2 found b rest one ih =>
    exact Cut.cons ih (Cut.char (encodeChar_of_one one))
  | case3 found b rest high hlead ih => exact Cut.cons ih (Cut.invalid [b])
  | case4 found b high lead hlead => exact ⟨_, List.reverse_cons, .cutOff [b]⟩
  | case5 found b high lead hlead b₁ rest h₁ ih => exact Cut.cons ih (Cut.invalid [b])
  | case6 found b high lead hlead b₁ rest h₁ two ih =>
    have bytes := encodeChar_of_two hlead two (by simpa using h₁)
    exact Cut.cons ih (Cut.char bytes)
  | case7 found b high lead hlead b₁ h₁ two => exact ⟨_, List.reverse_cons, .cutOff [b, b₁]⟩
  | case8 found b high lead hlead b₁ h₁ two b₂ rest h₂ ih =>
    exact Cut.cons ih (Cut.invalid [b, b₁])
  | case9 found b high lead hlead b₁ h₁ two b₂ rest h₂ three ih =>
    have bytes := encodeChar_of_three hlead three (by simpa using h₁) (by simpa using h₂)
    exact Cut.cons ih (Cut.char bytes)
  | case10 found b high lead hlead b₁ h₁ two b₂ h₂ three =>
    exact ⟨_, List.reverse_cons, .cutOff [b, b₁, b₂]⟩
  | case11 found b high lead hlead b₁ h₁ two b₂ h₂ three b₃ rest h₃ ih =>
    exact Cut.cons ih (Cut.invalid [b, b₁, b₂])
  | case12 found b high lead hlead b₁ h₁ two b₂ h₂ three b₃ rest h₃ ih =>
    have four : lead.following = 3 := by
      have := Lead.ofByte?_cases hlead (by simpa using h₁)
      omega
    have bytes := encodeChar_of_four hlead four (by simpa using h₁) (by simpa using h₂)
      (by simpa using h₃)
    exact Cut.cons ih (Cut.char bytes)

/-- **Nothing is lost between the pieces**: the bytes of a character are those of its
piece, and a fault has as many bytes as it says. -/
theorem cut_pieces (bytes : List UInt8) : Cut bytes (pieces bytes) := by
  obtain ⟨more, hmore, cut⟩ := exists_cut [] bytes
  rwa [pieces, hmore]

/-- Only bytes of characters are collected. -/
private theorem Cut.collect {bytes : List UInt8} {found : List Piece} (cut : Cut bytes found)
    {index : Nat} {behind whole : List Char} (h : collect index behind found = .ok whole) :
    ∃ text, whole = behind.reverse ++ text ∧ bytes = encode text := by
  induction cut generalizing index behind with
  | done => exact ⟨[], by rw [List.append_nil, Except.ok.inj h], rfl⟩
  | @char c front rest more hfront cut ih =>
    obtain ⟨text, hwhole, hrest⟩ := ih h
    refine ⟨c :: text, ?_, ?_⟩
    · rw [hwhole, List.reverse_cons, List.append_assoc, List.singleton_append]
    · rw [encode_cons, hfront, hrest]
  | invalid front cut ih => contradiction
  | cutOff front => contradiction

/-- **The strict reader accepts what is written and nothing else.** -/
theorem decode_eq_ok_iff {bytes : List UInt8} {text : List Char} :
    decode bytes = .ok text ↔ bytes = encode text := by
  constructor
  · intro h
    obtain ⟨_, rfl, hbytes⟩ := (cut_pieces bytes).collect h
    exact hbytes
  · rintro rfl
    exact decode_encode text

/-! ## Bytes below 128 -/

/-- **A byte below 128 is a character**: the text can be cut in front of it, and the
next character is that byte. -/
theorem exists_eq_append_of_getElem?_ascii {text : List Char} {i : Nat} {b : UInt8}
    (hb : (encode text)[i]? = some b) (ascii : b.toNat < 0x80) :
    ∃ before after, text = before ++ Char.ofNat b.toNat :: after ∧ size before = i := by
  induction text generalizing i with
  | nil => simp at hb
  | cons c rest ih =>
    rw [encode_cons] at hb
    by_cases inFirst : i < (String.utf8EncodeChar c).length
    · -- a byte below 128 in the bytes of a character is all of that character
      rw [List.getElem?_append_left inFirst] at hb
      have low : c.toNat < 0x80 := by
        by_contra high
        have := le_of_mem_encodeChar (Nat.le_of_not_lt high) (List.mem_of_getElem? hb)
        omega
      rw [encodeChar_ascii low] at hb inFirst
      obtain rfl : i = 0 := by simpa using inFirst
      obtain rfl : UInt8.ofNat c.toNat = b := by simpa using hb
      refine ⟨[], rest, ?_, rfl⟩
      rw [toNat_ofNat (by omega), Char.ofNat_toNat, List.nil_append]
    · rw [List.getElem?_append_right (Nat.le_of_not_lt inFirst)] at hb
      obtain ⟨before, after, rfl, hsize⟩ := ih hb
      refine ⟨c :: before, after, rfl, ?_⟩
      rw [size_cons, hsize]
      rw [String.length_utf8EncodeChar] at inFirst ⊢
      omega

/-- A character of ASCII stands in a text where its byte stands in the bytes. -/
theorem mem_encode_ascii {c : Char} (ascii : c.toNat < 0x80) (text : List Char) :
    UInt8.ofNat c.toNat ∈ encode text ↔ c ∈ text := by
  constructor
  · intro hb
    obtain ⟨i, hi⟩ := List.mem_iff_getElem?.mp hb
    have hc : (UInt8.ofNat c.toNat).toNat = c.toNat := toNat_ofNat (by omega)
    obtain ⟨before, after, rfl, -⟩ :=
      exists_eq_append_of_getElem?_ascii hi (by rw [hc]; exact ascii)
    rw [hc, Char.ofNat_toNat]
    simp
  · intro hc
    obtain ⟨before, after, rfl⟩ := List.append_of_mem hc
    rw [encode_append, encode_cons, encodeChar_ascii ascii]
    simp

end Utf8

theorem length_utf8Bytes (s : String) : (utf8Bytes s).length = s.utf8ByteSize := by
  rw [← String.size_toByteArray, ← String.utf8Encode_toList, List.utf8Encode,
    List.size_toByteArray]
  rfl

end LiveCoding
