import LiveCoding.Proofs.Text.Pieces
import LiveCoding.Settings.Token

/-!
# Rows cut into tokens

A value is written in quotes if it holds a blank, and read as one token either way.  The
one value that makes no token is the empty one, and the one character that cannot be in a
token is the quote.

## Main Statements

* `Token.split_quote_append`, `Token.split_quote`: a value that was written is read back.
* `Token.mem_of_mem_split`, `Token.quote_not_mem_of_mem_split`: what is in a token was in
  the row, and no quote is in a token.

## Design Notes

A token in the making is followed through a stretch that does not end it
(`splitFrom_stretch`): one without a quote, and without a blank unless it is in quotes.
-/

namespace LiveCoding

namespace Token

variable {row rest value : List Char} {token : Token} {c : Char}

/-! ### One character -/

section Step

variable {inQuotes : Bool} {start : Option Token}

/-- A quote turns quoting on or off. -/
theorem splitFrom_quote_cons (found : List Token) (row : List Char) :
    splitFrom inQuotes start found ('"' :: row) =
      splitFrom (!inQuotes) (some (start.getD [])) found row := by
  rw [splitFrom.eq_def]
  exact if_pos rfl

/-- A blank outside quotes ends the token in the making. -/
theorem splitFrom_blank (hc : isBlank c = true) (found : List Token) (row : List Char) :
    splitFrom false start found (c :: row) =
      splitFrom false none ((start.map List.reverse).toList ++ found) row := by
  have notQuote : c ≠ '"' := by
    rintro rfl
    exact absurd hc (by decide)
  rw [splitFrom.eq_def]
  dsimp only
  rw [if_neg notQuote, hc]
  cases start <;> rfl

/-- Any other character is added to it. -/
theorem splitFrom_cons (hc : c ≠ '"') (hblank : inQuotes = false → isBlank c = false)
    (found : List Token) (row : List Char) :
    splitFrom inQuotes start found (c :: row) =
      splitFrom inQuotes (some (c :: start.getD [])) found row := by
  have goesOn : (isBlank c && !inQuotes) = false := by
    cases inQuotes with
    | false => rw [hblank rfl, Bool.false_and]
    | true => exact Bool.and_false _
  rw [splitFrom.eq_def]
  dsimp only
  rw [if_neg hc, goesOn, if_neg Bool.false_ne_true]

/-- There is no fourth kind of character. -/
theorem quote_or_blank_or_other (inQuotes : Bool) (c : Char) :
    c = '"' ∨ (isBlank c = true ∧ inQuotes = false) ∨
      (c ≠ '"' ∧ (inQuotes = false → isBlank c = false)) := by
  by_cases hc : c = '"'
  · exact Or.inl hc
  · cases inQuotes with
    | true => exact Or.inr (Or.inr ⟨hc, Bool.noConfusion⟩)
    | false =>
      cases hblank : isBlank c with
      | true => exact Or.inr (Or.inl ⟨rfl, rfl⟩)
      | false => exact Or.inr (Or.inr ⟨hc, fun _ => rfl⟩)

end Step

theorem splitFrom_found (inQuotes : Bool) (start : Option Token) (found : List Token)
    (row : List Char) :
    splitFrom inQuotes start found row = found.reverse ++ splitFrom inQuotes start [] row := by
  induction row generalizing inQuotes start found with
  | nil => cases start <;> simp [splitFrom]
  | cons c row ih =>
    rcases quote_or_blank_or_other inQuotes c with rfl | ⟨hc, rfl⟩ | ⟨hc, hblank⟩
    · rw [splitFrom_quote_cons, splitFrom_quote_cons]
      exact ih _ _ _
    · rw [splitFrom_blank hc, splitFrom_blank hc, ih, ih _ _ (_ ++ []), List.reverse_append,
        List.append_nil, List.append_assoc]
    · rw [splitFrom_cons hc hblank, splitFrom_cons hc hblank]
      exact ih _ _ _

/-- A stretch that does not end a token is added to it. -/
theorem splitFrom_stretch {inQuotes : Bool} {token : Token} (hquote : '"' ∉ value)
    (hblank : inQuotes = false → ∀ c ∈ value, isBlank c = false) (row : List Char) :
    splitFrom inQuotes (some token) [] (value ++ row) =
      splitFrom inQuotes (some (value.reverse ++ token)) [] row := by
  induction value generalizing token with
  | nil => rfl
  | cons c value ih =>
    obtain ⟨hc, hvalue⟩ := not_or.mp (mt List.mem_cons.mpr hquote)
    have first : inQuotes = false → isBlank c = false := fun h => hblank h c List.mem_cons_self
    rw [List.cons_append, splitFrom_cons (Ne.symm hc) first, Option.getD_some,
      ih hvalue fun h c hc => hblank h c (List.mem_cons_of_mem _ hc), List.reverse_cons,
      List.append_assoc]
    rfl

/-! ### Values -/

theorem quote_of_blank (h : value.any isBlank = true) : quote value = '"' :: (value ++ ['"']) :=
  if_pos h

theorem quote_of_not_blank (h : ∀ c ∈ value, isBlank c = false) : quote value = value := by
  refine if_neg ?_
  rw [List.any_eq_true]
  rintro ⟨c, hc, blank⟩
  rw [h c hc] at blank
  contradiction

theorem quote_ne_nil (h : value ≠ []) : quote value ≠ [] := by
  unfold quote
  split
  · exact List.cons_ne_nil _ _
  · exact h

theorem mem_quote (h : c ∈ quote value) : c = '"' ∨ c ∈ value := by
  unfold quote at h
  split at h
  · rcases List.mem_cons.mp h with h | h
    · exact Or.inl h
    · rcases List.mem_append.mp h with h | h
      · exact Or.inr h
      · exact Or.inl (List.mem_singleton.mp h)
  · exact Or.inr h

/-- A value as it is written ends with no blank. -/
theorem isBlank_of_mem_getLast?_quote (h : c ∈ (quote value).getLast?) : isBlank c = false := by
  cases blank : value.any isBlank with
  | true =>
    rw [quote_of_blank blank, ← List.cons_append, List.getLast?_concat] at h
    obtain rfl := Option.some.inj h
    decide
  | false =>
    have plain : quote value = value := if_neg (Bool.eq_false_iff.mp blank)
    rw [plain] at h
    have last := List.any_eq_false.mp blank c (List.mem_of_mem_getLast? h)
    exact Bool.eq_false_iff.mpr last

/-- A value as it is written starts a token that is the value. -/
theorem splitFrom_quote (hvalue : value ≠ []) (hquote : '"' ∉ value) (row : List Char) :
    splitFrom false none [] (quote value ++ row) =
      splitFrom false (some value.reverse) [] row := by
  cases blank : value.any isBlank with
  | true =>
    rw [quote_of_blank blank, List.cons_append, List.append_assoc, splitFrom_quote_cons]
    show splitFrom true (some []) [] _ = _
    rw [splitFrom_stretch hquote Bool.noConfusion, List.singleton_append, splitFrom_quote_cons,
      List.append_nil]
    rfl
  | false =>
    have noBlank : ∀ c ∈ value, isBlank c = false := by
      intro c hc
      exact Bool.eq_false_iff.mpr (List.any_eq_false.mp blank c hc)
    rw [quote_of_not_blank noBlank]
    obtain ⟨c, rest, rfl⟩ := List.exists_cons_of_ne_nil hvalue
    obtain ⟨hc, hrest⟩ := not_or.mp (mt List.mem_cons.mpr hquote)
    rw [List.cons_append, splitFrom_cons (Ne.symm hc) fun _ => noBlank c List.mem_cons_self]
    rw [splitFrom_stretch hrest fun _ c hc => noBlank c (List.mem_cons_of_mem _ hc),
      List.reverse_cons]
    rfl

/-- **A value that was written is one token.** -/
theorem split_quote (hvalue : value ≠ []) (hquote : '"' ∉ value) :
    split (quote value) = [value] := by
  have written := splitFrom_quote hvalue hquote []
  rw [List.append_nil] at written
  rw [split, written, splitFrom, List.reverse_reverse]
  rfl

/-- **A value that was written is the first token** in front of a blank. -/
theorem split_quote_append (hvalue : value ≠ []) (hquote : '"' ∉ value)
    (hc : isBlank c = true) (rest : List Char) :
    split (quote value ++ c :: rest) = value :: split rest := by
  rw [split, splitFrom_quote hvalue hquote, splitFrom_blank hc, splitFrom_found]
  simp [split]

/-! ### Tokens of any row -/

/-- The token in the making comes out first. -/
theorem exists_splitFrom_eq (inQuotes : Bool) (start : Token) (row : List Char) :
    ∃ more rest, splitFrom inQuotes (some start) [] row = (start.reverse ++ more) :: rest := by
  induction row generalizing inQuotes start with
  | nil => exact ⟨[], [], by simp [splitFrom]⟩
  | cons c row ih =>
    rcases quote_or_blank_or_other inQuotes c with rfl | ⟨hc, rfl⟩ | ⟨hc, hblank⟩
    · rw [splitFrom_quote_cons]
      exact ih _ _
    · rw [splitFrom_blank hc, splitFrom_found]
      refine ⟨[], splitFrom false none [] row, ?_⟩
      simp
    · rw [splitFrom_cons hc hblank]
      obtain ⟨more, rest, h⟩ := ih inQuotes (c :: start)
      refine ⟨c :: more, rest, ?_⟩
      rw [Option.getD_some, h, List.reverse_cons, List.append_assoc]
      rfl

/-- A beginning without quotes and blanks is the beginning of the first token. -/
theorem exists_split_eq (hvalue : value ≠ []) (hquote : '"' ∉ value)
    (hblank : ∀ c ∈ value, isBlank c = false) (begins : value <+: row) :
    ∃ first rest, split row = first :: rest ∧ value <+: first := by
  obtain ⟨later, rfl⟩ := begins
  have started := splitFrom_quote hvalue hquote later
  rw [quote_of_not_blank hblank] at started
  obtain ⟨more, rest, cut⟩ := exists_splitFrom_eq false value.reverse later
  rw [List.reverse_reverse] at cut
  exact ⟨value ++ more, rest, started.trans cut, List.prefix_append _ _⟩

/-- What is in a token is in the row or was in the token in the making, and is no
quote. -/
theorem mem_of_mem_splitFrom {inQuotes : Bool} {start : Option Token}
    (h : token ∈ splitFrom inQuotes start [] row) (hc : c ∈ token) :
    c ∈ start.getD [] ∨ c ∈ row ∧ c ≠ '"' := by
  induction row generalizing inQuotes start with
  | nil =>
    cases start with
    | none => contradiction
    | some start =>
      obtain rfl := List.mem_singleton.mp h
      exact Or.inl (List.mem_reverse.mp hc)
  | cons d row ih =>
    have later : c ∈ row ∧ c ≠ '"' → c ∈ d :: row ∧ c ≠ '"' :=
      And.imp_left (List.mem_cons_of_mem d)
    rcases quote_or_blank_or_other inQuotes d with rfl | ⟨hd, rfl⟩ | ⟨hd, hblank⟩
    · rw [splitFrom_quote_cons] at h
      exact (ih h).imp_right later
    · rw [splitFrom_blank hd, splitFrom_found] at h
      rcases List.mem_append.mp h with h | h
      · cases start with
        | none => contradiction
        | some start =>
          obtain rfl : token = start.reverse := by simpa using h
          exact Or.inl (List.mem_reverse.mp hc)
      · exact (ih h).elim (absurd · List.not_mem_nil) (Or.inr ∘ later)
    · rw [splitFrom_cons hd hblank] at h
      rcases ih h with found | found
      · rcases List.mem_cons.mp found with rfl | found
        · exact Or.inr ⟨List.mem_cons_self, hd⟩
        · exact Or.inl found
      · exact Or.inr (later found)

/-- What is in a token was in the row. -/
theorem mem_of_mem_split (h : token ∈ split row) (hc : c ∈ token) : c ∈ row := by
  rcases mem_of_mem_splitFrom h hc with missing | found
  · contradiction
  · exact found.1

/-- **No quote is in a token.** -/
theorem quote_not_mem_of_mem_split (h : token ∈ split row) : '"' ∉ token := by
  intro hc
  rcases mem_of_mem_splitFrom h hc with missing | found
  · contradiction
  · exact found.2 rfl

end Token

end LiveCoding
