import LiveCoding.Proofs.Json.Numeral
import LiveCoding.Proofs.Json.Tokens

/-!
# Reading a JSON text

Every text of the grammar is read as the tree that it writes, with any spaces in it and however
deep it nests.

## Main Definitions

* `Json.Lexer.Yields`: a text gives some tokens and leaves the reader between tokens.
* `Json.Lexer.Reads`: a text gives some tokens, of which the last may still be open.

## Main Theorems

* `Json.Lexer.reads_of_padded`: a text of a tree gives the tokens of the tree.
* `Json.parse?_of_padded`: a text of a tree is read as the tree.

## Design Notes

A number ends only where a byte follows that is not part of it, so a text does not say by itself
that its last number is complete.  `Behind` holds of the two ways in which the reader may stand
at the end of a text, and what may stand behind a value in a text of the grammar does not tell
them apart.
-/

namespace LiveCoding

namespace Json

namespace Lexer

/-! ### The end of a number -/

/-- These tokens, newest first, are behind the reader, unless more bytes of the last one, a
number, are to come. -/
inductive Behind : List Token → State → Prop where
  | gap {found : List Token} : Behind found { found }
  | number {found : List Token} {draft : Draft} {numeral : Numeral}
      (h : draft.finish? = some numeral) :
      Behind (.number numeral :: found) { found, mode := .number draft }

/-- A byte that is not part of any number. -/
def EndsNumber (b : UInt8) : Prop :=
  digit? b = none ∧ b ≠ byte '.' ∧ isMark b = false

instance (b : UInt8) : Decidable (EndsNumber b) :=
  inferInstanceAs (Decidable (_ ∧ _ ∧ _))

theorem Behind.finish? {found : List Token} {state : State} (h : Behind found state) :
    state.finish? = some found.reverse := by
  cases h with
  | gap => rfl
  | number h => simp [State.finish?, h]

theorem Draft.extend?_of_endsNumber {draft : Draft} {numeral : Numeral}
    (h : draft.finish? = some numeral) {b : UInt8} (hb : EndsNumber b) :
    draft.extend? b = none := by
  obtain ⟨hdigit, hpoint, hmark⟩ := hb
  cases hphase : draft.phase <;> simp [finish?, hphase] at h <;>
    simp [extend?, hphase, hdigit, hpoint, hmark]

theorem Behind.step? {found : List Token} {state : State} (h : Behind found state) {b : UInt8}
    (hb : EndsNumber b) : Lexer.step? state b = startToken? found b := by
  cases h with
  | gap => rfl
  | number h =>
    simp [Lexer.step?, Draft.extend?_of_endsNumber h hb, hb.1, h]

/-! ### Texts and their tokens -/

/-- The text gives the tokens and leaves the reader between tokens. -/
def Yields (tokens : List Token) (text : List UInt8) : Prop :=
  ∀ found : List Token,
    text.foldlM Lexer.step? { found } = some { found := tokens.reverse ++ found }

/-- The text gives the tokens, of which the last may be a number that goes on. -/
def Reads (tokens : List Token) (text : List UInt8) : Prop :=
  ∀ found : List Token, ∃ state,
    text.foldlM Lexer.step? { found } = some state ∧ Behind (tokens.reverse ++ found) state

/-- A byte that is a token by itself, and cannot be part of a number. -/
def Delimits (token : Token) (b : UInt8) : Prop :=
  EndsNumber b ∧ ∀ found : List Token, startToken? found b = some { found := token :: found }

theorem delimits_listOpen : Delimits .listOpen (byte '[') := ⟨by decide, fun _ => rfl⟩

theorem delimits_listClose : Delimits .listClose (byte ']') := ⟨by decide, fun _ => rfl⟩

theorem delimits_recordOpen : Delimits .recordOpen (byte '\x7b') := ⟨by decide, fun _ => rfl⟩

theorem delimits_recordClose : Delimits .recordClose (byte '\x7d') := ⟨by decide, fun _ => rfl⟩

theorem delimits_colon : Delimits .colon (byte ':') := ⟨by decide, fun _ => rfl⟩

theorem delimits_comma : Delimits .comma (byte ',') := ⟨by decide, fun _ => rfl⟩

theorem Yields.reads {tokens : List Token} {text : List UInt8} (h : Yields tokens text) :
    Reads tokens text :=
  fun found => ⟨_, h found, .gap⟩

theorem Yields.append {front rest : List Token} {text more : List UInt8} (h : Yields front text)
    (hrest : Yields rest more) : Yields (front ++ rest) (text ++ more) := by
  intro found
  rw [List.foldlM_append, h found, List.reverse_append, List.append_assoc]
  exact hrest (front.reverse ++ found)

theorem Yields.append_reads {front rest : List Token} {text more : List UInt8}
    (h : Yields front text) (hrest : Reads rest more) : Reads (front ++ rest) (text ++ more) := by
  intro found
  rw [List.foldlM_append, h found, List.reverse_append, List.append_assoc]
  exact hrest (front.reverse ++ found)

theorem Delimits.yields {token : Token} {b : UInt8} (h : Delimits token b) :
    Yields [token] [b] := by
  intro found
  have hstep : Lexer.step? { found } b = some { found := token :: found } := h.2 found
  rw [List.foldlM_cons, hstep]
  rfl

/-- A delimiter settles what is in front of it. -/
theorem Reads.delimit {tokens : List Token} {text : List UInt8} (h : Reads tokens text)
    {token : Token} {b : UInt8} (hb : Delimits token b) :
    Yields (tokens ++ [token]) (text ++ [b]) := by
  intro found
  obtain ⟨state, hstate, hbehind⟩ := h found
  rw [List.foldlM_append, hstate]
  change (Lexer.step? state b >>= pure) = _
  rw [hbehind.step? hb.1, hb.2, List.reverse_append]
  rfl

theorem yields_of_isGap {gap : List UInt8} (h : IsGap gap) : Yields [] gap := by
  intro found
  induction gap with
  | nil => rfl
  | cons b rest ih =>
    obtain ⟨hb, hrest⟩ := List.forall_mem_cons.mp h
    have hstep : Lexer.step? { found } b = some { found } := if_pos hb
    rw [List.foldlM_cons, hstep]
    exact ih hrest

theorem endsNumber_of_isSpace {b : UInt8} (h : isSpace b = true) : EndsNumber b := by
  simp only [isSpace, Bool.or_eq_true, beq_iff_eq] at h
  rcases h with ((rfl | rfl) | rfl) | rfl <;> decide

theorem Reads.append_gap {tokens : List Token} {text gap : List UInt8} (h : Reads tokens text)
    (hgap : IsGap gap) : Reads tokens (text ++ gap) := by
  cases gap with
  | nil => rwa [List.append_nil]
  | cons b rest =>
    obtain ⟨hb, hrest⟩ := List.forall_mem_cons.mp hgap
    intro found
    obtain ⟨state, hstate, hbehind⟩ := h found
    have hstep : Lexer.step? state b = some { found := tokens.reverse ++ found } :=
      (hbehind.step? (endsNumber_of_isSpace hb)).trans (if_pos hb)
    refine ⟨_, ?_, .gap⟩
    rw [List.foldlM_append, hstate]
    change (b :: rest).foldlM Lexer.step? state = _
    rw [List.foldlM_cons, hstep]
    exact yields_of_isGap hrest _

/-- Texts with commas between them give their tokens with commas between them. -/
theorem reads_intercalate {rows : List (List Token)} {texts : List (List UInt8)}
    (nonempty : rows ≠ []) (h : List.Forall₂ Reads rows texts) :
    Reads ([.comma].intercalate rows) ([byte ','].intercalate texts) := by
  induction h with
  | nil => exact absurd rfl nonempty
  | cons hrow hrest ih =>
    cases hrest with
    | nil => rwa [List.intercalate_singleton, List.intercalate_singleton]
    | cons hnext hrest =>
      rw [List.intercalate_cons_cons, List.intercalate_cons_cons]
      exact (hrow.delimit delimits_comma).append_reads (ih (List.cons_ne_nil _ _))

/-! ### Strings -/

/-- The digits of an escape by number, as many as are to come. -/
theorem foldlM_hex {digits : List UInt8} (hex : ∀ b ∈ digits, (hexDigit? b).isSome)
    (nonempty : digits ≠ []) (found : List Token) (raw : List UInt8) :
    digits.foldlM Lexer.step? { found, mode := .hex digits.length raw } =
      some { found, mode := .text (digits.reverse ++ raw) } := by
  induction digits generalizing raw with
  | nil => exact absurd rfl nonempty
  | cons b rest ih =>
    obtain ⟨hb, hrest⟩ := List.forall_mem_cons.mp hex
    have hdigit : (hexDigit? b).isNone = false := by simpa using hb
    cases rest with
    | nil => simp [List.foldlM_cons, Lexer.step?, hdigit]
    | cons next rest =>
      have hstep : Lexer.step? { found, mode := .hex (b :: next :: rest).length raw } b =
          some { found, mode := .hex (next :: rest).length (b :: raw) } := by
        simp [Lexer.step?, hdigit]
      rw [List.foldlM_cons, hstep, List.reverse_cons, List.append_assoc]
      exact ih hrest (List.cons_ne_nil next rest) (b :: raw)

/-- What may stand between quotes is kept as it is. -/
theorem foldlM_raw {text : List UInt8} (h : IsRaw text) (found : List Token) (raw : List UInt8) :
    text.foldlM Lexer.step? { found, mode := .text raw } =
      some { found, mode := .text (text.reverse ++ raw) } := by
  induction h generalizing raw with
  | nil => rfl
  | @plain b rest noQuote noEscape noControl _ ih =>
    have hstep : Lexer.step? { found, mode := .text raw } b =
        some { found, mode := .text (b :: raw) } := by
      simp only [Lexer.step?, if_neg noQuote, if_neg noEscape, if_neg noControl]
    rw [List.foldlM_cons, hstep, List.reverse_cons, List.append_assoc]
    exact ih (b :: raw)
  | @short b rest hb _ ih =>
    have hstep : Lexer.step? { found, mode := .escape raw } b =
        some { found, mode := .text (b :: byte '\\' :: raw) } :=
      if_pos hb
    change (b :: rest).foldlM Lexer.step? { found, mode := .escape raw } = _
    rw [List.foldlM_cons, hstep, List.reverse_cons, List.reverse_cons, List.append_assoc,
      List.append_assoc]
    exact ih (b :: byte '\\' :: raw)
  | @unit digits rest length hex _ ih =>
    have hdigits := foldlM_hex hex (List.ne_nil_of_length_eq_add_one length) found
      (byte 'u' :: byte '\\' :: raw)
    rw [length] at hdigits
    -- the backslash and the letter behind it lead into the digits
    change (digits ++ rest).foldlM Lexer.step?
      { found, mode := .hex 4 (byte 'u' :: byte '\\' :: raw) } = _
    rw [List.foldlM_append, hdigits]
    change rest.foldlM Lexer.step? _ = _
    rw [ih]
    simp

theorem yields_text {raw : List UInt8} (h : IsRaw raw) :
    Yields [.text raw] (byte '"' :: (raw ++ [byte '"'])) := by
  intro found
  change (raw ++ [byte '"']).foldlM Lexer.step? { found, mode := .text [] } = _
  rw [List.foldlM_append, foldlM_raw h, List.append_nil]
  change some ({ found := .text raw.reverse.reverse :: found } : State) = _
  rw [List.reverse_reverse]
  rfl

/-! ### Numbers -/

/-- A digit between tokens starts a number. -/
theorem startToken?_digit {b : UInt8} {d : Nat} (hb : digit? b = some d) (found : List Token) :
    startToken? found b =
      (({ phase := .sign, negative := false } : Draft).extend? b).map fun draft =>
        { found, mode := .number draft } := by
  have hspace : isSpace b = false := by
    by_contra hspace
    have hnone := (endsNumber_of_isSpace (Bool.of_not_eq_false hspace)).1
    exact Option.some_ne_none d (hb.symm.trans hnone)
  have hother : ∀ c ∈ ['[', ']', '\x7b', '\x7d', ':', ',', '"', '-', 'n', 't', 'f'],
      b ≠ byte c := by
    have hnone : ∀ c ∈ ['[', ']', '\x7b', '\x7d', ':', ',', '"', '-', 'n', 't', 'f'],
        (digit? (byte c)).isNone = true := List.all_eq_true.mp (by decide)
    rintro c hc rfl
    exact Option.some_ne_none d (hb.symm.trans (Option.isNone_iff_eq_none.mp (hnone c hc)))
  simp [startToken?, hspace, hother]

theorem foldlM_number {text : List UInt8} {draft last : Draft}
    (h : text.foldlM Draft.extend? draft = some last) (found : List Token) :
    text.foldlM Lexer.step? { found, mode := .number draft } =
      some { found, mode := .number last } := by
  induction text generalizing draft with
  | nil => cases h; rfl
  | cons b rest ih =>
    rw [List.foldlM_cons] at h
    obtain ⟨next, hnext, hrest⟩ := Option.bind_eq_some_iff.mp h
    have hstep : Lexer.step? { found, mode := .number draft } b =
        some { found, mode := .number next } := by
      simp [Lexer.step?, hnext]
    rw [List.foldlM_cons, hstep]
    exact ih hrest

theorem exists_digit_of_whole {text : List UInt8} {digits : List Nat} (h : WholeText text digits) :
    ∃ b d rest, text = b :: rest ∧ digit? b = some d := by
  cases h with
  | zero hb => exact ⟨_, _, _, rfl, hb⟩
  | digits hb _ => exact ⟨_, _, _, rfl, hb⟩

theorem reads_number {numeral : Numeral} {text : List UInt8} (h : numeral.Written text) :
    Reads [.number numeral] text := by
  intro found
  obtain @⟨whole, fraction, exponent, _, hwhole, hfraction, hexponent⟩ := h
  obtain ⟨last, hrun, hlast⟩ := Draft.exists_of_parts hwhole hfraction hexponent
  refine ⟨{ found, mode := .number last }, ?_, .number hlast⟩
  cases hnegative : numeral.negative with
  | true =>
    rw [hnegative] at hrun
    change (whole ++ fraction ++ exponent).foldlM Lexer.step?
      { found, mode := .number { phase := .sign, negative := true } } = _
    exact foldlM_number hrun found
  | false =>
    obtain ⟨b, d, rest, rfl, hb⟩ := exists_digit_of_whole hwhole
    rw [hnegative, List.cons_append, List.cons_append, List.foldlM_cons] at hrun
    obtain ⟨first, hfirst, hrest⟩ := Option.bind_eq_some_iff.mp hrun
    have hstep : Lexer.step? { found } b = some { found, mode := .number first } := by
      change startToken? found b = _
      rw [startToken?_digit hb, hfirst]
      rfl
    change (b :: (rest ++ fraction ++ exponent)).foldlM Lexer.step? { found } = _
    rw [List.foldlM_cons, hstep]
    exact foldlM_number hrest found

/-! ### Trees -/

theorem yields_null : Yields [.null] (asciiBytes "null") := by
  intro found
  rfl

theorem yields_bool (value : Bool) :
    Yields [.bool value] (asciiBytes (if value then "true" else "false")) := by
  intro found
  cases value <;> rfl

theorem reads_of_padded_of_written {tree : Tree}
    (h : ∀ text, tree.Written text → Reads tree.tokens text) (text : List UInt8)
    (hpadded : tree.Padded text) : Reads tree.tokens text := by
  obtain ⟨hbefore, hwritten, hafter⟩ := hpadded
  exact (yields_of_isGap hbefore).append_reads ((h _ hwritten).append_gap hafter)

theorem reads_of_member {member : List UInt8 × Tree}
    (h : ∀ text, member.2.Written text → Reads member.2.tokens text) (text : List UInt8)
    (hmember : Tree.MemberWritten member text) :
    Reads (.text member.1 :: .colon :: member.2.tokens) text := by
  obtain ⟨hbefore, hraw, hafter, hvalue⟩ := hmember
  have hreads := reads_of_padded_of_written h _ hvalue
  exact (yields_of_isGap hbefore).append_reads ((yields_text hraw).append_reads
    ((yields_of_isGap hafter).append_reads (delimits_colon.yields.append_reads hreads)))

/-- The texts of all parts of a container are read if the texts of each of them are. -/
theorem forall₂_reads {α : Type} {written : α → List UInt8 → Prop} {row : α → List Token}
    {parts : List α} {texts : List (List UInt8)} (h : List.Forall₂ written parts texts)
    (hreads : ∀ part ∈ parts, ∀ text, written part text → Reads (row part) text) :
    List.Forall₂ Reads (parts.map row) texts :=
  List.forall₂_map_left_iff.mpr
    (((List.forall₂_and_left parts texts).mpr ⟨hreads, h⟩).imp fun _ text h => h.1 text h.2)

theorem reads_of_written (tree : Tree) :
    ∀ text, tree.Written text → Reads tree.tokens text := by
  induction tree using Tree.tokens.induct with
  | case1 =>
    rintro _ ⟨⟩
    rw [Tree.tokens]
    exact yields_null.reads
  | case2 value =>
    rintro _ ⟨⟩
    rw [Tree.tokens]
    exact (yields_bool value).reads
  | case3 numeral =>
    intro text h
    cases h with
    | number h =>
      rw [Tree.tokens]
      exact reads_number h
  | case4 raw =>
    intro text h
    cases h with
    | text h =>
      rw [Tree.tokens]
      exact (yields_text h).reads
  | case5 items ih =>
    intro text h
    rw [Tree.tokens]
    cases h with
    | emptyList hgap =>
      exact (delimits_listOpen.yields.append
        ((yields_of_isGap hgap).reads.delimit delimits_listClose)).reads
    | list nonempty h =>
      have hrows := forall₂_reads h fun item hitem => reads_of_padded_of_written (ih item hitem)
      exact (delimits_listOpen.yields.append
        ((reads_intercalate (by simpa using nonempty) hrows).delimit delimits_listClose)).reads
  | case6 members ih =>
    intro text h
    rw [Tree.tokens]
    cases h with
    | emptyRecord hgap =>
      exact (delimits_recordOpen.yields.append
        ((yields_of_isGap hgap).reads.delimit delimits_recordClose)).reads
    | record nonempty h =>
      have hrows := forall₂_reads h fun member hmember => reads_of_member (ih member hmember)
      exact (delimits_recordOpen.yields.append
        ((reads_intercalate (by simpa using nonempty) hrows).delimit delimits_recordClose)).reads

/-- A text of a tree gives the tokens of the tree. -/
theorem reads_of_padded {tree : Tree} {text : List UInt8} (h : tree.Padded text) :
    Reads tree.tokens text :=
  reads_of_padded_of_written (reads_of_written tree) text h

end Lexer

/-- A text of a tree is read as the tree. -/
theorem parse?_of_padded {tree : Tree} {text : List UInt8} (h : tree.Padded text) :
    parse? text = some tree := by
  obtain ⟨state, hstate, hbehind⟩ := Lexer.reads_of_padded h []
  have htokens : tokens? text = some tree.tokens := by
    rw [tokens?, hstate]
    change state.finish? = _
    rw [hbehind.finish?, List.append_nil, List.reverse_reverse]
  rw [parse?, htokens]
  exact Tree.ofTokens?_tokens tree

end Json

end LiveCoding
