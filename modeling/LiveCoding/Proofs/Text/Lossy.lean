import LiveCoding.Proofs.Text.Pieces
import LiveCoding.Proofs.Text.Utf8
import Mathlib.Data.List.Infix

/-!
# UTF-8 read forgivingly

A forgiving reader is used where bytes from elsewhere are looked at for a few known
characters.  For that it must neither hide nor make up any: what it shows stands in the
bytes, U+FFFD apart, and a byte below 128 is shown as its character, whatever stands
around it, also behind a character that is cut off.

## Main Definitions

* `Utf8.Begins`: the first piece of some bytes, and what is behind it.

## Main Statements

* `Utf8.decodeLossy_append_ascii`: a byte below 128 separates what is read in front of it
  from what is read behind it.
* `Utf8.encode_infix_of_infix_decodeLossy`: what is shown stands in the bytes.
* `Utf8.splitFirst?_decodeLossy`: so a text is split at such a byte as its bytes are.

## Design Notes

The reader takes one piece after the other, and the ways in which a piece can end are
gone through once, in `exists_begins`: with a byte below 128 behind the bytes, each
piece stays as it is but for one, the piece at the end that is cut off.  It becomes
invalid, which looks the same.
-/

namespace LiveCoding

namespace Utf8

/-! ### One piece -/

/-- Some bytes begin with a piece, and others are behind it. -/
def Begins (bytes : List UInt8) (piece : Piece) (rest : List UInt8) : Prop :=
  ∀ found, piecesFrom found bytes = piecesFrom (piece :: found) rest

section Begins

variable {b₀ b₁ b₂ b₃ : UInt8} {rest : List UInt8} {lead : Lead}

theorem begins_stray (high : ¬ b₀.toNat < 0x80) (hlead : Lead.ofByte? b₀ = none) :
    Begins (b₀ :: rest) (.invalid 1) rest := by
  intro found
  rw [piecesFrom, if_neg high]
  simp only [hlead]

theorem begins_invalid_one (hlead : Lead.ofByte? b₀ = some lead)
    (h₁ : lead.admits b₁ = false) : Begins (b₀ :: b₁ :: rest) (.invalid 1) (b₁ :: rest) := by
  have high := Lead.le_of_ofByte? hlead
  intro found
  rw [piecesFrom, if_neg (by omega)]
  simp only [hlead, h₁, Bool.not_false, if_true]

theorem begins_invalid_two (hlead : Lead.ofByte? b₀ = some lead) (h₁ : lead.admits b₁ = true)
    (more : lead.following ≠ 1) (h₂ : isContinuation b₂ = false) :
    Begins (b₀ :: b₁ :: b₂ :: rest) (.invalid 2) (b₂ :: rest) := by
  have high := Lead.le_of_ofByte? hlead
  intro found
  rw [piecesFrom, if_neg (by omega)]
  simp only [hlead, h₁, h₂, more, Bool.not_true, Bool.not_false, Bool.false_eq_true, if_false,
    if_true]

theorem begins_invalid_three (hlead : Lead.ofByte? b₀ = some lead) (h₁ : lead.admits b₁ = true)
    (more : lead.following ≠ 1) (h₂ : isContinuation b₂ = true) (most : lead.following ≠ 2)
    (h₃ : isContinuation b₃ = false) :
    Begins (b₀ :: b₁ :: b₂ :: b₃ :: rest) (.invalid 3) (b₃ :: rest) := by
  have high := Lead.le_of_ofByte? hlead
  intro found
  rw [piecesFrom, if_neg (by omega)]
  simp only [hlead, h₁, h₂, h₃, more, most, Bool.not_true, Bool.not_false, Bool.false_eq_true,
    if_false, if_true]

theorem begins_cutOff_one (hlead : Lead.ofByte? b₀ = some lead) :
    Begins [b₀] (.cutOff 1) [] := by
  have high := Lead.le_of_ofByte? hlead
  intro found
  show piecesFrom found [b₀] = (Piece.cutOff 1 :: found).reverse
  rw [piecesFrom, if_neg (by omega)]
  simp only [hlead]

theorem begins_cutOff_two (hlead : Lead.ofByte? b₀ = some lead) (h₁ : lead.admits b₁ = true)
    (more : lead.following ≠ 1) : Begins [b₀, b₁] (.cutOff 2) [] := by
  have high := Lead.le_of_ofByte? hlead
  intro found
  show piecesFrom found [b₀, b₁] = (Piece.cutOff 2 :: found).reverse
  rw [piecesFrom, if_neg (by omega)]
  simp only [hlead, h₁, more, Bool.not_true, Bool.false_eq_true, if_false]

theorem begins_cutOff_three (hlead : Lead.ofByte? b₀ = some lead) (h₁ : lead.admits b₁ = true)
    (more : lead.following ≠ 1) (h₂ : isContinuation b₂ = true) (most : lead.following ≠ 2) :
    Begins [b₀, b₁, b₂] (.cutOff 3) [] := by
  have high := Lead.le_of_ofByte? hlead
  intro found
  show piecesFrom found [b₀, b₁, b₂] = (Piece.cutOff 3 :: found).reverse
  rw [piecesFrom, if_neg (by omega)]
  simp only [hlead, h₁, h₂, more, most, Bool.not_true, Bool.false_eq_true, if_false]

end Begins

theorem not_isContinuation_ascii {b : UInt8} (ascii : b.toNat < 0x80) :
    isContinuation b = false := by
  rw [isContinuation, Bool.and_eq_false_iff, decide_eq_false_iff_not]
  exact Or.inl (Nat.not_le_of_lt ascii)

theorem not_admits_ascii {b₀ b : UInt8} {lead : Lead} (hlead : Lead.ofByte? b₀ = some lead)
    (ascii : b.toNat < 0x80) : lead.admits b = false := by
  by_contra admits
  rw [Bool.not_eq_false] at admits
  have := (Lead.ofByte?_cases hlead admits).1
  omega

/-- **The first piece** shows the same if a byte below 128 follows the bytes. -/
theorem exists_begins {bytes : List UInt8} (nonempty : bytes ≠ []) :
    ∃ piece rest, rest.length < bytes.length ∧ Begins bytes piece rest ∧
      ∀ (b : UInt8) (tail : List UInt8), b.toNat < 0x80 → ∃ piece' : Piece,
        piece'.shown = piece.shown ∧ Begins (bytes ++ b :: tail) piece' (rest ++ b :: tail) := by
  -- the cases of the reader: the ways in which a piece can end
  fun_cases piecesFrom [] bytes with
  | case1 => exact absurd rfl nonempty
  | case2 _ b₀ rest one =>
    exact ⟨_, rest, by simp, fun found => piecesFrom_one found rest one,
      fun b tail _ => ⟨_, rfl, fun found => piecesFrom_one found _ one⟩⟩
  | case3 _ b₀ rest high hlead =>
    exact ⟨_, rest, by simp, begins_stray high hlead,
      fun b tail _ => ⟨_, rfl, begins_stray high hlead⟩⟩
  | case4 _ b₀ high lead hlead =>
    exact ⟨_, [], by simp, begins_cutOff_one hlead, fun b tail ascii =>
      ⟨.invalid 1, rfl, begins_invalid_one hlead (not_admits_ascii hlead ascii)⟩⟩
  | case5 _ b₀ high lead hlead b₁ rest h₁ =>
    have h₁ : lead.admits b₁ = false := by simpa using h₁
    exact ⟨_, b₁ :: rest, by simp, begins_invalid_one hlead h₁,
      fun b tail _ => ⟨_, rfl, begins_invalid_one hlead h₁⟩⟩
  | case6 _ b₀ high lead hlead b₁ rest h₁ two =>
    have h₁ : lead.admits b₁ = true := by simpa using h₁
    exact ⟨_, rest, by simp only [List.length_cons]; omega,
      fun found => piecesFrom_two found rest hlead two h₁,
      fun b tail _ => ⟨_, rfl, fun found => piecesFrom_two found _ hlead two h₁⟩⟩
  | case7 _ b₀ high lead hlead b₁ h₁ two =>
    have h₁ : lead.admits b₁ = true := by simpa using h₁
    exact ⟨_, [], by simp, begins_cutOff_two hlead h₁ two, fun b tail ascii =>
      ⟨.invalid 2, rfl, begins_invalid_two hlead h₁ two (not_isContinuation_ascii ascii)⟩⟩
  | case8 _ b₀ high lead hlead b₁ h₁ two b₂ rest h₂ =>
    have h₁ : lead.admits b₁ = true := by simpa using h₁
    have h₂ : isContinuation b₂ = false := by simpa using h₂
    exact ⟨_, b₂ :: rest, by simp, begins_invalid_two hlead h₁ two h₂,
      fun b tail _ => ⟨_, rfl, begins_invalid_two hlead h₁ two h₂⟩⟩
  | case9 _ b₀ high lead hlead b₁ h₁ two b₂ rest h₂ three =>
    have h₁ : lead.admits b₁ = true := by simpa using h₁
    have h₂ : isContinuation b₂ = true := by simpa using h₂
    exact ⟨_, rest, by simp only [List.length_cons]; omega,
      fun found => piecesFrom_three found rest hlead three h₁ h₂,
      fun b tail _ => ⟨_, rfl, fun found => piecesFrom_three found _ hlead three h₁ h₂⟩⟩
  | case10 _ b₀ high lead hlead b₁ h₁ two b₂ h₂ three =>
    have h₁ : lead.admits b₁ = true := by simpa using h₁
    have h₂ : isContinuation b₂ = true := by simpa using h₂
    exact ⟨_, [], by simp, begins_cutOff_three hlead h₁ two h₂ three, fun b tail ascii =>
      ⟨.invalid 3, rfl,
        begins_invalid_three hlead h₁ two h₂ three (not_isContinuation_ascii ascii)⟩⟩
  | case11 _ b₀ high lead hlead b₁ h₁ two b₂ h₂ three b₃ rest h₃ =>
    have h₁ : lead.admits b₁ = true := by simpa using h₁
    have h₂ : isContinuation b₂ = true := by simpa using h₂
    have h₃ : isContinuation b₃ = false := by simpa using h₃
    exact ⟨_, b₃ :: rest, by simp, begins_invalid_three hlead h₁ two h₂ three h₃,
      fun b tail _ => ⟨_, rfl, begins_invalid_three hlead h₁ two h₂ three h₃⟩⟩
  | case12 _ b₀ high lead hlead b₁ h₁ two b₂ h₂ three b₃ rest h₃ =>
    have h₁ : lead.admits b₁ = true := by simpa using h₁
    have h₂ : isContinuation b₂ = true := by simpa using h₂
    have h₃ : isContinuation b₃ = true := by simpa using h₃
    have four : lead.following = 3 := by
      have := (Lead.ofByte?_cases hlead h₁).2
      omega
    exact ⟨_, rest, by simp only [List.length_cons]; omega,
      fun found => piecesFrom_four found rest hlead four h₁ h₂ h₃,
      fun b tail _ => ⟨_, rfl, fun found => piecesFrom_four found _ hlead four h₁ h₂ h₃⟩⟩

/-! ### All pieces -/

/-- What was found before stays in front of what is found. -/
theorem piecesFrom_eq (found : List Piece) (bytes : List UInt8) :
    piecesFrom found bytes = found.reverse ++ pieces bytes := by
  induction hn : bytes.length using Nat.strongRecOn generalizing found bytes with
  | ind n ih =>
    subst hn
    rcases eq_or_ne bytes [] with rfl | nonempty
    · exact (List.append_nil _).symm
    · obtain ⟨piece, rest, shorter, begins, -⟩ := exists_begins nonempty
      rw [pieces, begins found, begins [], ih _ shorter _ rest rfl, ih _ shorter [piece] rest rfl]
      simp

theorem Begins.pieces_eq {bytes rest : List UInt8} {piece : Piece} (h : Begins bytes piece rest) :
    pieces bytes = piece :: pieces rest := by
  rw [pieces, h [], piecesFrom_eq]
  rfl

theorem Begins.decodeLossy_eq {bytes rest : List UInt8} {piece : Piece}
    (h : Begins bytes piece rest) : decodeLossy bytes = piece.shown :: decodeLossy rest := by
  rw [decodeLossy, h.pieces_eq]
  rfl

/-- **A byte below 128 separates** what is read in front of it from what is read behind it,
and is shown as its character. -/
theorem decodeLossy_append_ascii {b : UInt8} (ascii : b.toNat < 0x80) (front rest : List UInt8) :
    decodeLossy (front ++ b :: rest) =
      decodeLossy front ++ Char.ofNat b.toNat :: decodeLossy rest := by
  induction hn : front.length using Nat.strongRecOn generalizing front with
  | ind n ih =>
    subst hn
    rcases eq_or_ne front [] with rfl | nonempty
    · have first : Begins (b :: rest) (.char (Char.ofNat b.toNat)) rest :=
        fun found => piecesFrom_one found rest ascii
      exact first.decodeLossy_eq
    · obtain ⟨piece, later, shorter, begins, followed⟩ := exists_begins nonempty
      obtain ⟨piece', same, begins'⟩ := followed b rest ascii
      rw [begins'.decodeLossy_eq, begins.decodeLossy_eq, ih _ shorter later rfl, same,
        List.cons_append]

/-! ### What is shown -/

/-- Pieces at the end are those of bytes at the end. -/
theorem Cut.exists_append {bytes : List UInt8} {before after : List Piece}
    (cut : Cut bytes (before ++ after)) : ∃ front back, bytes = front ++ back ∧ Cut back after := by
  induction before generalizing bytes with
  | nil => exact ⟨[], bytes, rfl, cut⟩
  | cons piece before ih =>
    cases hpieces : before ++ after with
    | nil =>
      obtain ⟨rfl, rfl⟩ := List.append_eq_nil_iff.mp hpieces
      exact ⟨bytes, [], (List.append_nil _).symm, .done⟩
    | cons next more =>
      rw [List.cons_append, hpieces] at cut
      cases cut with
      | @char c front rest _ hfront cut =>
        obtain ⟨front', back, rfl, later⟩ := ih (hpieces ▸ cut)
        exact ⟨front ++ front', back, (List.append_assoc _ _ _).symm, later⟩
      | @invalid front rest _ cut =>
        obtain ⟨front', back, rfl, later⟩ := ih (hpieces ▸ cut)
        exact ⟨front ++ front', back, (List.append_assoc _ _ _).symm, later⟩

/-- Characters are the pieces of their bytes. -/
theorem Cut.encode_prefix {bytes : List UInt8} {text : List Char} {after : List Piece}
    (cut : Cut bytes (text.map .char ++ after)) : encode text <+: bytes := by
  induction text generalizing bytes with
  | nil => exact List.nil_prefix
  | cons c text ih =>
    rw [List.map_cons, List.cons_append] at cut
    cases cut with
    | char hfront cut =>
      rw [encode_cons, hfront, List.prefix_append_right_inj]
      exact ih cut

/-- Only a fault is shown as U+FFFD, and nothing else. -/
theorem map_shown_eq {found : List Piece} {text : List Char} (h : found.map Piece.shown = text)
    (clean : '\uFFFD' ∉ text) : found = text.map .char := by
  subst h
  induction found with
  | nil => rfl
  | cons piece found ih =>
    rw [List.map_cons, List.mem_cons, not_or] at clean
    cases piece with
    | char c => exact congrArg (Piece.char c :: ·) (ih clean.2)
    | invalid length => exact absurd rfl clean.1
    | cutOff length => exact absurd rfl clean.1

/-- **What is shown stands in the bytes**, as its own bytes, unless it is U+FFFD. -/
theorem encode_infix_of_infix_decodeLossy {bytes : List UInt8} {text : List Char}
    (h : text <:+: decodeLossy bytes) (clean : '\uFFFD' ∉ text) : encode text <:+: bytes := by
  obtain ⟨before, after, h⟩ := h
  obtain ⟨front, back, hpieces, hfront, -⟩ := List.append_eq_map_iff.mp h
  obtain ⟨front, mid, rfl, -, hmid⟩ := List.append_eq_map_iff.mp hfront.symm
  have cut := cut_pieces bytes
  rw [hpieces, map_shown_eq hmid clean, List.append_assoc] at cut
  obtain ⟨head, tail, rfl, inTail⟩ := cut.exists_append
  exact inTail.encode_prefix.isInfix.trans (List.suffix_append head tail).isInfix

/-- A byte below 128 is shown as its character, and only that is. -/
theorem mem_decodeLossy_iff {b : UInt8} (ascii : b.toNat < 0x80) {bytes : List UInt8} :
    Char.ofNat b.toNat ∈ decodeLossy bytes ↔ b ∈ bytes := by
  constructor
  · intro h
    have own : encode [Char.ofNat b.toNat] = [b] := by
      have all : ∀ n : Fin 0x80, encode [Char.ofNat n] = [UInt8.ofNat n] := by decide
      simpa using all ⟨b.toNat, ascii⟩
    have notFault : '\uFFFD' ∉ [Char.ofNat b.toNat] := by
      have all : ∀ n : Fin 0x80, '\uFFFD' ∉ [Char.ofNat n] := by decide
      exact all ⟨b.toNat, ascii⟩
    have shown : [Char.ofNat b.toNat] <:+: decodeLossy bytes := (List.singleton_infix_iff _ _).mpr h
    have stands := encode_infix_of_infix_decodeLossy shown notFault
    rw [own] at stands
    exact (List.singleton_infix_iff _ _).mp stands
  · intro h
    obtain ⟨front, rest, rfl⟩ := List.append_of_mem h
    rw [decodeLossy_append_ascii ascii]
    exact List.mem_append_right _ List.mem_cons_self

/-- **A text is split where its bytes are.** -/
theorem splitFirst?_decodeLossy {b : UInt8} (ascii : b.toNat < 0x80) (bytes : List UInt8) :
    splitFirst? (Char.ofNat b.toNat) (decodeLossy bytes) =
      (splitFirst? b bytes).map (Prod.map decodeLossy decodeLossy) := by
  by_cases hmem : b ∈ bytes
  · obtain ⟨front, rest, rfl, clean⟩ := List.eq_append_cons_of_mem hmem
    rw [decodeLossy_append_ascii ascii, splitFirst?_append clean,
      splitFirst?_append (mt (mem_decodeLossy_iff ascii).mp clean)]
    rfl
  · rw [splitFirst?_of_not_mem hmem,
      splitFirst?_of_not_mem (mt (mem_decodeLossy_iff ascii).mp hmem)]
    rfl

end Utf8

end LiveCoding
