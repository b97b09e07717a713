import LiveCoding.Proofs.Settings.Flags
import LiveCoding.Proofs.Settings.Token
import LiveCoding.Settings.Store

/-!
# The text of saved flags

Each value is a row of its own, behind its key, and so is each switch that is on.  The
rows are cut into the tokens that they were made of, unless a value holds a line feed,
which ends its row, or a quote, which no token holds.

## Main Definitions

* `Flags.IsStorable`, `Flags.Storable`: texts, and flags, that can be stored.
* `Flags.value?`: the value that a key is saved with.
* `Flags.rowTokens`: the tokens of a row.
* `Flags.writtenTokens`: the tokens that saved flags are meant to be cut into.

## Main Statements

* `Flags.rows_written`: the rows of saved flags.
* `Flags.tokens_written`: their tokens.
-/

namespace LiveCoding

namespace Flags

variable {flags : Flags} {key : Key} {value : Token}

/-! ### What can be stored -/

/-- A text that can be stored. -/
structure IsStorable (value : Token) : Prop where
  ne_nil : value ≠ []
  quote_not_mem : '"' ∉ value
  newline_not_mem : '\n' ∉ value
  not_long : ¬ "--".toList <+: value

/-- Flags whose values can be stored. -/
structure Storable (flags : Flags) : Prop where
  sclangPath : ∀ path ∈ flags.sclangPath, IsStorable path.toList
  oscHost : ∀ host ∈ flags.oscHost, IsStorable host.toList
  oscPort : ∀ port ∈ flags.oscPort, IsSigned port
  languageServerPort : ∀ port ∈ flags.languageServerPort, IsSigned port

theorem storable_iff : flags.Storable ↔
    (∀ key, ∀ value ∈ flags.text? key, IsStorable value) ∧
      ∀ key, ∀ port ∈ flags.port? key, IsSigned port := by
  constructor
  · rintro ⟨path, host, port, server⟩
    constructor
    · rintro (_ | _ | _ | _) value hvalue
      · obtain ⟨s, hs, rfl⟩ := Option.map_eq_some_iff.mp hvalue
        exact path s hs
      · obtain ⟨s, hs, rfl⟩ := Option.map_eq_some_iff.mp hvalue
        exact host s hs
      · contradiction
      · contradiction
    · rintro (_ | _ | _ | _) n hn
      · contradiction
      · contradiction
      · exact port n hn
      · exact server n hn
  · rintro ⟨texts, ports⟩
    refine ⟨?_, ?_, ports .oscPort, ports .languageServerPort⟩
    · intro path hpath
      exact texts .sclangPath _ (Option.map_eq_some_iff.mpr ⟨path, hpath, rfl⟩)
    · intro host hhost
      exact texts .oscHost _ (Option.map_eq_some_iff.mpr ⟨host, hhost, rfl⟩)

theorem isLong_iff {token : Token} : Token.isLong token = true ↔ "--".toList <+: token :=
  List.isPrefixOf_iff_prefix

/-! ### Values as they are written -/

/-- A port as it is written. -/
def numeral (n : Int) : Token :=
  (toString n).toList

theorem mem_numeral {n : Int} {c : Char} (h : c ∈ numeral n) : c = '-' ∨ isDigit c = true := by
  rw [numeral, toList_toString] at h
  rcases List.mem_append.mp h with h | h
  · split at h
    · exact Or.inl (List.mem_singleton.mp h)
    · contradiction
  · exact Or.inr (isDigit_of_mem_toDigits h)

theorem not_mem_numeral {c : Char} (hc : c ≠ '-') (hdigit : isDigit c = false) (n : Int) :
    c ∉ numeral n := by
  intro h
  rcases mem_numeral h with rfl | digit
  · exact hc rfl
  · rw [hdigit] at digit
    contradiction

theorem isBlank_of_mem_numeral {n : Int} {c : Char} (h : c ∈ numeral n) : isBlank c = false := by
  rcases mem_numeral h with rfl | h
  · decide
  · exact isBlank_of_isDigit h

/-- A port as it is written can be stored: at most one dash is in it. -/
theorem isStorable_numeral (n : Int) : IsStorable (numeral n) where
  ne_nil := by
    rw [numeral, toList_toString]
    exact List.append_ne_nil_of_right_ne_nil _ Nat.toDigits_ne_nil
  quote_not_mem := not_mem_numeral (by decide) (by decide) n
  newline_not_mem := not_mem_numeral (by decide) (by decide) n
  not_long := by
    rw [numeral, toList_toString]
    have noDash : ∀ rest, ¬ '-' :: rest <+: Nat.toDigits 10 n.natAbs := by
      intro rest h
      exact absurd (isDigit_of_mem_toDigits (h.subset List.mem_cons_self)) (by decide)
    split
    · intro h
      exact noDash [] (List.cons_prefix_cons.mp h).2
    · exact noDash ['-']

/-- The value that a key is saved with. -/
def value? (flags : Flags) (key : Key) : Option Token :=
  (flags.text? key).or ((flags.port? key).map numeral)

theorem text_or_numeral (h : value ∈ flags.value? key) :
    value ∈ flags.text? key ∨ ∃ n, value = numeral n := by
  rcases Option.or_eq_some_iff.mp h with htext | ⟨-, hport⟩
  · exact Or.inl htext
  · obtain ⟨n, -, rfl⟩ := Option.map_eq_some_iff.mp hport
    exact Or.inr ⟨n, rfl⟩

/-! ### The rows of saved flags -/

/-- The rows of the switches that are on. -/
def switchRows (flags : Flags) : List (List Char) :=
  switchRow noLanguageServerName flags.noLanguageServer ++ switchRow quietName flags.quiet

theorem mem_switchRow {name : String} {on : Bool} {row : List Char}
    (h : row ∈ switchRow name on) : row = name.toList := by
  unfold switchRow at h
  split at h
  · exact List.mem_singleton.mp h
  · contradiction

theorem mem_switchRows {row : List Char} (h : row ∈ flags.switchRows) :
    row = noLanguageServerName.toList ∨ row = quietName.toList :=
  (List.mem_append.mp h).imp mem_switchRow mem_switchRow

theorem map_quote_text (text? : Option String) :
    ((text?.map String.toList).or none).map Token.quote =
      text?.map fun s => Token.quote s.toList := by
  cases text? <;> rfl

theorem map_quote_port (port? : Option Int) :
    ((none : Option Token).or (port?.map numeral)).map Token.quote = port?.map numeral := by
  cases port? with
  | none => rfl
  | some n =>
    show some (Token.quote (numeral n)) = some (numeral n)
    rw [Token.quote_of_not_blank fun c => isBlank_of_mem_numeral]

/-- The rows, key by key. -/
theorem rows_eq (flags : Flags) :
    flags.rows = header.toList ::
      (Key.all.flatMap fun key => valueRow key ((flags.value? key).map Token.quote)) ++
      flags.switchRows := by
  simp only [Key.all, List.flatMap_cons, List.flatMap_nil, value?, text?, Flags.port?,
    Option.map_none, map_quote_text, map_quote_port, List.append_nil]
  unfold rows numeral switchRows
  simp only [List.cons_append, List.append_assoc]

theorem mem_rows {row : List Char} (h : row ∈ flags.rows) :
    row = header.toList ∨ row = noLanguageServerName.toList ∨ row = quietName.toList ∨
      ∃ key, ∃ value ∈ flags.value? key, row = key.name.toList ++ ' ' :: Token.quote value := by
  rw [rows_eq, List.cons_append] at h
  rcases List.mem_cons.mp h with h | h
  · exact Or.inl h
  rcases List.mem_append.mp h with h | h
  · obtain ⟨key, -, h⟩ := List.mem_flatMap.mp h
    cases hvalue : flags.value? key with
    | none =>
      rw [hvalue] at h
      contradiction
    | some value =>
      rw [hvalue] at h
      exact Or.inr (Or.inr (Or.inr ⟨key, value, hvalue, List.mem_singleton.mp h⟩))
  rcases mem_switchRows h with h | h
  · exact Or.inr (Or.inl h)
  · exact Or.inr (Or.inr (Or.inl h))

/-- The row of a key ends with no blank if there is a value. -/
theorem isBlank_of_mem_getLast?_valueRow (key : Key) (hvalue : value ≠ []) {c : Char}
    (h : c ∈ (key.name.toList ++ ' ' :: Token.quote value).getLast?) : isBlank c = false := by
  have last := List.getLast?_eq_some_getLast (Token.quote_ne_nil hvalue)
  rw [List.append_cons, List.getLast?_append, last, Option.some_or, ← last] at h
  exact Token.isBlank_of_mem_getLast?_quote h

/-- The row of a key is read back unless the value holds a line feed. -/
theorem valueRow_whole (key : Key) (h : '\n' ∉ value) :
    '\n' ∉ key.name.toList ++ ' ' :: Token.quote value ∧
      (key.name.toList ++ ' ' :: Token.quote value).getLast? ≠ some '\r' := by
  constructor
  · intro hmem
    rcases List.mem_append.mp hmem with hmem | hmem
    · cases key <;> exact absurd hmem (by decide)
    · rcases List.mem_cons.mp hmem with hmem | hmem
      · exact absurd hmem (by decide)
      · rcases Token.mem_quote hmem with hmem | hmem
        · exact absurd hmem (by decide)
        · exact h hmem
  · by_cases hempty : value = []
    · subst hempty
      cases key <;> decide
    · intro hlast
      exact absurd (isBlank_of_mem_getLast?_valueRow key hempty hlast) (by decide)

/-- The rows of saved flags are read back, unless a value holds a line feed. -/
theorem rows_written (h : ∀ key, ∀ value ∈ flags.value? key, '\n' ∉ value) :
    LiveCoding.rows flags.written = flags.rows := by
  refine rows_flatMap ?_ ?_
  · intro row hrow
    rcases mem_rows hrow with rfl | rfl | rfl | ⟨key, value, hvalue, rfl⟩
    · decide
    · decide
    · decide
    · exact (valueRow_whole key (h key value hvalue)).1
  · intro row hrow
    rcases mem_rows hrow with rfl | rfl | rfl | ⟨key, value, hvalue, rfl⟩
    · decide
    · decide
    · decide
    · exact (valueRow_whole key (h key value hvalue)).2

/-! ### The tokens of saved flags -/

/-- The tokens of a row. -/
def rowTokens (row : List Char) : List Token :=
  if isTelling (trim row) then Token.split (trim row) else []

theorem tokens_eq (text : List Char) : tokens text = (LiveCoding.rows text).flatMap rowTokens := by
  rw [tokens]
  induction LiveCoding.rows text with
  | nil => rfl
  | cons row rest ih =>
    rw [List.map_cons, List.filter_cons, List.flatMap_cons, rowTokens, ← ih]
    split <;> rfl

theorem tokens_append (text rest : List Char) :
    tokens (text ++ '\n' :: rest) = tokens (text ++ ['\n']) ++ tokens rest := by
  rw [tokens_eq, rows_append, List.flatMap_append, ← tokens_eq, ← tokens_eq]

/-- The tokens that a key and its value make. -/
def valueTokens (key : Key) : Option Token → List Token
  | none => []
  | some value => key.name.toList :: if value.isEmpty then [] else [value]

/-- A key and its value are read back as one token each, unless the value is empty. -/
theorem rowTokens_value (key : Key) (hquote : '"' ∉ value) :
    rowTokens (key.name.toList ++ ' ' :: Token.quote value) = valueTokens key (some value) := by
  by_cases hvalue : value = []
  · subst hvalue
    cases key <;> decide
  · have named : key.name.toList ≠ [] ∧ '"' ∉ key.name.toList ∧
        Token.quote key.name.toList = key.name.toList := by
      cases key <;> decide
    obtain ⟨nonempty, unquoted, plain⟩ := named
    have kept : trim (key.name.toList ++ ' ' :: Token.quote value) =
        key.name.toList ++ ' ' :: Token.quote value := by
      refine trim_eq_self ?_ ?_
      · intro c hc
        cases key <;> (obtain rfl := Option.some.inj hc; decide)
      · exact fun c => isBlank_of_mem_getLast?_valueRow key hvalue
    have telling : isTelling (key.name.toList ++ ' ' :: Token.quote value) = true := by
      cases key <;> rfl
    have cut := Token.split_quote_append nonempty unquoted (c := ' ') (by decide)
      (Token.quote value)
    rw [plain, Token.split_quote hvalue hquote] at cut
    rw [rowTokens, kept, if_pos telling, cut, valueTokens, if_neg]
    simpa using hvalue

/-- The tokens that saved flags are meant to be cut into. -/
def writtenTokens (flags : Flags) : List Token :=
  (Key.all.flatMap fun key => valueTokens key (flags.value? key)) ++ flags.switchRows

/-- **The tokens of saved flags**, unless a value holds a quote or a line feed. -/
theorem tokens_written (hquote : ∀ key, ∀ value ∈ flags.value? key, '"' ∉ value)
    (hnewline : ∀ key, ∀ value ∈ flags.value? key, '\n' ∉ value) :
    tokens flags.written = flags.writtenTokens := by
  have comment : rowTokens header.toList = [] := by decide
  have values (key : Key) : (valueRow key ((flags.value? key).map Token.quote)).flatMap rowTokens =
      valueTokens key (flags.value? key) := by
    cases hvalue : flags.value? key with
    | none => rfl
    | some value =>
      rw [Option.map_some, valueRow, List.flatMap_singleton]
      exact rowTokens_value key (hquote key value hvalue)
  have switches : flags.switchRows.flatMap rowTokens = flags.switchRows := by
    unfold switchRows
    cases flags.noLanguageServer <;> cases flags.quiet <;> decide
  rw [tokens_eq, rows_written hnewline, rows_eq, List.cons_append, List.flatMap_cons, comment,
    List.nil_append, List.flatMap_append, List.flatMap_assoc, switches]
  simp only [values]
  rfl

end Flags

end LiveCoding
