import LiveCoding.Proofs.Json.Grammar

/-!
# Reading a number

The automaton on the bytes of a number takes in the texts of the grammar, and the number that
it has at the end is the one that the text writes.

## Main Theorems

* `Json.Lexer.Draft.foldlM_digits`: what a row of digits does to a number in the making.
* `Json.Lexer.Draft.exists_of_parts`: a text of a number is taken in, and finished as it.

## Design Notes

A part of a number is a family of drafts, one for each row of digits that the part has so far.
Whether the row is empty tells the phases of a part apart: behind its first digit a part may end.
-/

namespace LiveCoding

namespace Json

namespace Lexer

namespace Draft

/-- A row of digits goes digit by digit into the part that is being read. -/
theorem foldlM_digits (part : List Nat → Draft)
    (hpart : ∀ behind b d, digit? b = some d → (part behind).extend? b = some (part (d :: behind)))
    {text : List UInt8} {digits : List Nat} (h : Digits text digits) (behind : List Nat) :
    text.foldlM extend? (part behind) = some (part (digits.reverse ++ behind)) := by
  induction h generalizing behind with
  | nil => rfl
  | @cons b d text digits hb _ ih =>
    rw [List.foldlM_cons, hpart behind b d hb, List.reverse_cons, List.append_assoc]
    exact ih (d :: behind)

/-! ### In front of the point -/

/-- The number with these digits in front of the point, newest first. -/
def ofWhole (negative : Bool) (digits : List Nat) : Draft :=
  { phase := .whole, negative, whole := digits }

theorem exists_whole {text : List UInt8} {digits : List Nat} (h : WholeText text digits)
    (negative : Bool) :
    ∃ phase, (phase = .zero ∨ phase = .whole) ∧
      text.foldlM extend? { phase := .sign, negative } =
        some { phase, negative, whole := digits.reverse } := by
  cases h with
  | @zero b hb => exact ⟨.zero, .inl rfl, by simp [List.foldlM_cons, extend?, hb]⟩
  | @digits b d rest more hb hrest =>
    refine ⟨.whole, .inr rfl, ?_⟩
    have hfirst : ({ phase := .sign, negative } : Draft).extend? b =
        some (ofWhole negative [d + 1]) := by
      simp [extend?, ofWhole, hb]
    rw [List.foldlM_cons, hfirst, List.reverse_cons]
    exact foldlM_digits (ofWhole negative) (fun _ _ _ hb => by simp [extend?, ofWhole, hb]) hrest _

/-! ### From the point on -/

/-- The number with these digits behind the point, newest first. -/
def withFraction (draft : Draft) (digits : List Nat) : Draft :=
  { draft with
    phase := if digits = [] then .point else .fraction
    fraction := digits }

theorem exists_fraction {text : List UInt8} {digits : List Nat} (h : FractionText text digits)
    (draft : Draft) (hphase : draft.phase = .zero ∨ draft.phase = .whole)
    (hfraction : draft.fraction = []) :
    ∃ phase, (phase = .zero ∨ phase = .whole ∨ phase = .fraction) ∧
      text.foldlM extend? draft = some { draft with phase, fraction := digits.reverse } := by
  cases h with
  | none =>
    refine ⟨draft.phase, hphase.imp_right .inl, ?_⟩
    rw [List.foldlM_nil, List.reverse_nil, ← hfraction]
    rfl
  | @digits text digits h nonempty =>
    refine ⟨.fraction, .inr (.inr rfl), ?_⟩
    have hpoint : draft.extend? (byte '.') = some (draft.withFraction []) := by
      have hdigit : digit? (byte '.') = Option.none := by decide
      rcases hphase with hphase | hphase <;>
        simp [extend?, withFraction, hphase, hdigit, hfraction]
    have hdigits := foldlM_digits draft.withFraction (fun behind b d hb => by
      by_cases hempty : behind = [] <;> simp [extend?, withFraction, hb, hempty]) h []
    rw [List.foldlM_cons, hpoint]
    exact hdigits.trans (by simp [withFraction, nonempty])

/-! ### From the letter of the exponent on -/

theorem isMark_iff {b : UInt8} : isMark b = true ↔ b = byte 'e' ∨ b = byte 'E' := by
  simp [isMark]

theorem extend?_mark {draft : Draft} {b : UInt8} (hb : isMark b = true)
    (hphase : draft.phase = .zero ∨ draft.phase = .whole ∨ draft.phase = .fraction) :
    draft.extend? b = some { draft with phase := .mark } := by
  have hdigit : digit? b = none := by
    rcases isMark_iff.mp hb with rfl | rfl <;> decide
  have hpoint : b ≠ byte '.' := by
    rcases isMark_iff.mp hb with rfl | rfl <;> decide
  rcases hphase with hphase | hphase | hphase <;> simp [extend?, hphase, hdigit, hpoint, hb]

theorem exists_sign {text : List UInt8} {negative : Bool} (h : ExponentSign text negative)
    (draft : Draft) (hphase : draft.phase = .mark) (hsign : draft.exponentNegative = false) :
    ∃ phase, (phase = .mark ∨ phase = .exponentSign) ∧
      text.foldlM extend? draft = some { draft with phase, exponentNegative := negative } := by
  have hplus : digit? (byte '+') = none := by decide
  have hminus : digit? (byte '-') = none := by decide
  have hdiffer : byte '-' ≠ byte '+' := by decide
  cases h with
  | none => exact ⟨.mark, .inl rfl, by rw [List.foldlM_nil, ← hphase, ← hsign]; rfl⟩
  | plus =>
    exact ⟨.exponentSign, .inr rfl, by simp [List.foldlM_cons, extend?, hphase, hplus, hsign]⟩
  | minus =>
    exact ⟨.exponentSign, .inr rfl, by simp [List.foldlM_cons, extend?, hphase, hminus, hdiffer]⟩

/-- The number with these digits in its exponent, newest first. -/
def withExponent (draft : Draft) (digits : List Nat) : Draft :=
  { draft with
    phase := if digits = [] then draft.phase else .exponent
    exponent := min greatestExponent (decimal digits.reverse) }

theorem withExponent_nil {draft : Draft} (h : draft.exponent = 0) :
    draft.withExponent [] = draft := by
  have hzero : min greatestExponent (decimal ([] : List Nat).reverse) = draft.exponent :=
    (Nat.min_zero _).trans h.symm
  rw [withExponent, if_pos rfl, hzero]

theorem decimal_concat (digits : List Nat) (d : Nat) :
    decimal (digits ++ [d]) = decimal digits * 10 + d :=
  List.foldl_append

theorem extend?_withExponent {draft : Draft}
    (hphase : draft.phase = .mark ∨ draft.phase = .exponentSign) (behind : List Nat) {b : UInt8}
    {d : Nat} (hb : digit? b = some d) :
    (draft.withExponent behind).extend? b = some (draft.withExponent (d :: behind)) := by
  -- an exponent that is cut off at the greatest one stays there with more digits
  have hcut : min greatestExponent (min greatestExponent (decimal behind.reverse) * 10 + d) =
      min greatestExponent (decimal (d :: behind).reverse) := by
    rw [List.reverse_cons, decimal_concat]
    omega
  have htaken : (draft.withExponent behind).extend? b =
      some
        { draft.withExponent behind with
          phase := .exponent
          exponent := min greatestExponent ((draft.withExponent behind).exponent * 10 + d) } := by
    by_cases hempty : behind = []
    · rcases hphase with hphase | hphase <;> simp [extend?, withExponent, hempty, hphase, hb]
    · simp [extend?, withExponent, hempty, hb]
  exact htaken.trans (congrArg
    (fun exponent => some { draft.withExponent behind with phase := .exponent, exponent }) hcut)

theorem foldlM_exponent (draft : Draft) (hphase : draft.phase = .mark ∨ draft.phase = .exponentSign)
    (hexponent : draft.exponent = 0) {text : List UInt8} {digits : List Nat}
    (h : Digits text digits) :
    text.foldlM extend? draft = some (draft.withExponent digits.reverse) := by
  have hrun := foldlM_digits draft.withExponent
    (fun behind _ _ hb => extend?_withExponent hphase behind hb) h []
  rwa [withExponent_nil hexponent, List.append_nil] at hrun

theorem exists_exponent {text : List UInt8} {exponent : Option Int} (h : ExponentText text exponent)
    (draft : Draft) (hphase : draft.phase = .zero ∨ draft.phase = .whole ∨ draft.phase = .fraction)
    (hexponent : draft.exponent = 0) (hsign : draft.exponentNegative = false) :
    ∃ last, text.foldlM extend? draft = some last ∧
      last.finish? =
        some
          { negative := draft.negative
            whole := draft.whole.reverse
            fraction := draft.fraction.reverse
            exponent } := by
  cases h with
  | none =>
    refine ⟨draft, rfl, ?_⟩
    rcases hphase with hphase | hphase | hphase <;> simp [finish?, hphase]
  | @digits mark sign text negative digits hmark hsignText h nonempty =>
    obtain ⟨phase, hsigned, hrun⟩ := exists_sign hsignText { draft with phase := .mark } rfl hsign
    refine ⟨withExponent { draft with phase, exponentNegative := negative } digits.reverse, ?_, ?_⟩
    · rw [List.foldlM_cons, extend?_mark hmark hphase]
      change (sign ++ text).foldlM extend? _ = _
      rw [List.foldlM_append, hrun]
      exact foldlM_exponent { draft with phase, exponentNegative := negative } hsigned hexponent h
    · simp [finish?, withExponent, nonempty]

/-! ### The whole number -/

/-- A text of a number without its sign is taken in, and finished as the number. -/
theorem exists_of_parts {whole fraction exponent : List UInt8} {numeral : Numeral}
    (hwhole : WholeText whole numeral.whole) (hfraction : FractionText fraction numeral.fraction)
    (hexponent : ExponentText exponent numeral.exponent) :
    ∃ last,
      (whole ++ fraction ++ exponent).foldlM extend?
          { phase := .sign, negative := numeral.negative } =
        some last ∧
      last.finish? = some numeral := by
  obtain ⟨phase, hphase, hrunWhole⟩ := exists_whole hwhole numeral.negative
  obtain ⟨behind, hbehind, hrunFraction⟩ := exists_fraction hfraction
    { phase, negative := numeral.negative, whole := numeral.whole.reverse } hphase rfl
  obtain ⟨last, hrunExponent, hlast⟩ := exists_exponent hexponent
    { phase := behind
      negative := numeral.negative
      whole := numeral.whole.reverse
      fraction := numeral.fraction.reverse } hbehind rfl rfl
  refine ⟨last, ?_, ?_⟩
  · rw [List.foldlM_append, List.foldlM_append, hrunWhole]
    change (fraction.foldlM extend? _ >>= exponent.foldlM extend?) = _
    rw [hrunFraction]
    exact hrunExponent
  · simpa using hlast

end Draft

end Lexer

end Json

end LiveCoding
