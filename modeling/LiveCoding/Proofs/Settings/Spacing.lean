import LiveCoding.Proofs.Settings.Token

/-!
# Rows of several values

Values that are written beside each other, with blanks in between, are read back one by
one.  Of any other row nothing is lost but what separates: its tokens hold all of it in
order, without its quotes and without the blanks outside quotes.

## Main Definitions

* `Token.Spaced`: a row in which values stand as they are written.
* `Token.isOpen`: whether a stretch leaves quoting on.
* `Token.unquoted`: a row without its quotes and the blanks outside quotes.

## Main Statements

* `Token.split_spaced`: what is read of a row of values.
* `Token.flatten_split`: what is read of any row.
* `Token.split_undoes_quote`: both in one.

## Design Notes

Whether a blank is in quotes depends on all that is in front of it, but only on whether the
quotes there are odd in number.  So what is left of a row is said place by place, without
following it from the start.
-/

namespace LiveCoding

namespace Token

variable {row rest gap value : List Char} {values : List Token} {c : Char}

/-! ### Values beside each other -/

/-- A row in which values stand as they are written.  Behind each one come blanks, and at
least one if another value follows. -/
inductive Spaced : List Token → List Char → Prop where
  | nil : Spaced [] []
  | cons {value gap : List Char} {values : List Token} {row : List Char}
    (blank : ∀ c ∈ gap, isBlank c = true) (apart : values ≠ [] → gap ≠ [])
    (h : Spaced values row) : Spaced (value :: values) (quote value ++ (gap ++ row))

/-- Blanks at the start of a row are passed over. -/
theorem split_blanks_append (blank : ∀ c ∈ gap, isBlank c = true) (row : List Char) :
    split (gap ++ row) = split row := by
  induction gap with
  | nil => rfl
  | cons c gap ih =>
    rw [List.forall_mem_cons] at blank
    rw [List.cons_append, split, splitFrom_blank blank.1]
    exact ih blank.2

/-- A value that is no token is not seen. -/
theorem quote_nil : quote [] = [] :=
  rfl

/-- **Every value is read back**, unless it is empty. -/
theorem split_spaced (h : Spaced values row) (noQuote : ∀ value ∈ values, '"' ∉ value) :
    split row = values.filter (!·.isEmpty) := by
  induction h with
  | nil => rfl
  | @cons value gap values row blank apart h ih =>
    obtain ⟨first, later⟩ := List.forall_mem_cons.mp noQuote
    cases value with
    | nil =>
      rw [quote_nil, List.nil_append, split_blanks_append blank]
      exact ih later
    | cons c value =>
      cases gap with
      | nil =>
        -- nothing stands behind the value, so it is the last one
        obtain rfl : values = [] := Decidable.not_not.mp fun ne => apart ne rfl
        cases h
        rw [List.append_nil, List.append_nil, split_quote (List.cons_ne_nil _ _) first]
        rfl
      | cons b gap =>
        rw [List.forall_mem_cons] at blank
        rw [List.cons_append, split_quote_append (List.cons_ne_nil _ _) first blank.1,
          split_blanks_append blank.2, ih later]
        rfl

/-- Values are read back as they are if they are tokens: neither empty nor with a quote. -/
theorem split_spaced_iff (h : Spaced values row) :
    split row = values ↔ ∀ value ∈ values, value ≠ [] ∧ '"' ∉ value := by
  constructor
  · intro back value mem
    have noQuote : ∀ value ∈ values, '"' ∉ value := by
      rw [← back]
      exact fun _ => quote_not_mem_of_mem_split
    rw [split_spaced h noQuote, List.filter_eq_self] at back
    exact ⟨by simpa using back value mem, noQuote value mem⟩
  · intro tokens
    rw [split_spaced h fun value mem => (tokens value mem).2, List.filter_eq_self]
    intro value mem
    simpa using (tokens value mem).1

/-! ### Any row -/

/-- Whether a stretch leaves quoting on: it holds an odd number of quotes. -/
def isOpen (stretch : List Char) : Bool :=
  stretch.count '"' % 2 == 1

/-- Whether a character is kept behind a stretch: quotes are not, and blanks only in
quotes. -/
def isKept (stretch : List Char) (c : Char) : Bool :=
  c != '"' && (!isBlank c || isOpen stretch)

/-- A row without its quotes and without the blanks outside quotes. -/
def unquoted (row : List Char) : List Char :=
  (row.zipIdx.filter fun place => isKept (row.take place.2) place.1).map Prod.fst

theorem isOpen_nil : isOpen [] = false :=
  rfl

theorem isOpen_concat_quote (stretch : List Char) :
    isOpen (stretch ++ ['"']) = !isOpen stretch := by
  rw [isOpen, isOpen, List.count_append, List.count_singleton_self, Nat.add_mod]
  rcases Nat.mod_two_eq_zero_or_one (stretch.count '"') with even | odd
  · rw [even]
    rfl
  · rw [odd]
    rfl

theorem isOpen_concat (stretch : List Char) (hc : c ≠ '"') :
    isOpen (stretch ++ [c]) = isOpen stretch := by
  rw [isOpen, isOpen, List.count_append, List.count_singleton, beq_false_of_ne hc]
  rfl

/-- What is kept of the rest of a row, behind a stretch. -/
def unquotedBehind (stretch rest : List Char) : List Char :=
  ((rest.zipIdx stretch.length).filter fun place =>
    isKept ((stretch ++ rest).take place.2) place.1).map Prod.fst

theorem unquotedBehind_cons (stretch : List Char) (c : Char) (rest : List Char) :
    unquotedBehind stretch (c :: rest) =
      (if isKept stretch c then [c] else []) ++ unquotedBehind (stretch ++ [c]) rest := by
  rw [unquotedBehind, List.zipIdx_cons, List.filter_cons, List.take_left, List.append_cons,
    unquotedBehind, List.length_append]
  cases isKept stretch c <;> rfl

theorem unquotedBehind_of_kept {stretch : List Char} (h : isKept stretch c = true) :
    unquotedBehind stretch (c :: rest) = c :: unquotedBehind (stretch ++ [c]) rest := by
  rw [unquotedBehind_cons, if_pos h]
  rfl

theorem unquotedBehind_of_not_kept {stretch : List Char} (h : isKept stretch c = false) :
    unquotedBehind stretch (c :: rest) = unquotedBehind (stretch ++ [c]) rest := by
  rw [unquotedBehind_cons, if_neg (Bool.eq_false_iff.mp h)]
  rfl

/-- **Nothing else is lost.**  A token in the making comes first, and then what is kept of the
rest of the row. -/
theorem flatten_splitFrom (stretch : List Char) (start : Option Token) (rest : List Char) :
    (splitFrom (isOpen stretch) start [] rest).flatten =
      (start.getD []).reverse ++ unquotedBehind stretch rest := by
  induction rest generalizing stretch start with
  | nil => cases start <;> simp [splitFrom, unquotedBehind]
  | cons c rest ih =>
    rcases quote_or_blank_or_other (isOpen stretch) c with rfl | ⟨hc, closed⟩ | ⟨hc, hblank⟩
    · rw [unquotedBehind_of_not_kept rfl, splitFrom_quote_cons, ← isOpen_concat_quote, ih]
      rfl
    · have notQuote : c ≠ '"' := by
        rintro rfl
        exact absurd hc (by decide)
      have gone : isKept stretch c = false := by
        rw [isKept, hc, closed]
        exact Bool.and_false _
      rw [unquotedBehind_of_not_kept gone, closed, splitFrom_blank hc, splitFrom_found, ← closed,
        ← isOpen_concat stretch notQuote, List.flatten_append, ih]
      cases start <;> simp
    · have kept : isKept stretch c = true := by
        rw [isKept, bne_iff_ne.mpr hc, Bool.true_and]
        cases inQuotes : isOpen stretch with
        | false => rw [hblank inQuotes]; rfl
        | true => exact Bool.or_true _
      rw [unquotedBehind_of_kept kept, splitFrom_cons hc hblank, ← isOpen_concat stretch hc, ih,
        Option.getD_some, List.reverse_cons, List.append_assoc]
      rfl

/-- **Nothing is lost of a row** but its quotes and its blanks outside quotes. -/
theorem flatten_split (row : List Char) : (split row).flatten = unquoted row :=
  flatten_splitFrom [] none row

/-- **Reading a row undoes writing its values**, whatever blanks stand around them, exactly
if each of them can be a token.  Of any row at all, no token holds a quote, and nothing is
lost but quotes and blanks outside quotes. -/
theorem split_undoes_quote :
    (∀ (values : List Token) (gap row : List Char), Spaced values row →
        (∀ c ∈ gap, isBlank c = true) →
          (split (gap ++ row) = values ↔ ∀ value ∈ values, value ≠ [] ∧ '"' ∉ value)) ∧
      ∀ row : List Char, (∀ token ∈ split row, '"' ∉ token) ∧
        (split row).flatten = unquoted row := by
  refine ⟨?_, fun row => ⟨fun token => quote_not_mem_of_mem_split, flatten_split row⟩⟩
  intro values gap row spaced blank
  rw [split_blanks_append blank, split_spaced_iff spaced]

/-- Three values are read back, one with a blank in it and one that is nothing but an
ideographic space.  A row that leaves quoting on has its tokens too. -/
theorem split_undoes_quote_ideographic : ∃ row : List Char,
    Spaced ["a b".toList, "--c".toList, "\u3000".toList] row ∧
      split ("\t ".toList ++ row) = ["a b".toList, "--c".toList, "\u3000".toList] ∧
      "b c".toList ∈ split "a \"b c".toList ∧ '"' ∉ "b c".toList ∧
      (split "a \"b c".toList).flatten = "ab c".toList := by
  obtain ⟨back, any⟩ := split_undoes_quote
  obtain ⟨noQuote, left⟩ := any "a \"b c".toList
  have spaced : Spaced ["a b".toList, "--c".toList, "\u3000".toList]
      "\"a b\"  --c\u2028\"\u3000\"".toList :=
    @Spaced.cons _ "  ".toList _ _ (List.all_eq_true.mp rfl) (by decide) <|
      @Spaced.cons _ "\u2028".toList _ _ (List.all_eq_true.mp rfl) (by decide) <|
      @Spaced.cons _ [] _ _ (List.all_eq_true.mp rfl) (by decide) .nil
  exact ⟨_, spaced, (back _ "\t ".toList _ spaced (List.all_eq_true.mp rfl)).mpr (by decide),
    by decide, noQuote _ (by decide), left.trans (by decide)⟩

end Token

end LiveCoding
