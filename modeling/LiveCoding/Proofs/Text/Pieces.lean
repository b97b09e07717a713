import LiveCoding.Text.Blank
import LiveCoding.Text.Rows
import LiveCoding.Text.Split

/-!
# Pieces of a text

What comes out when a text is split at a separator, freed of the blanks at its ends, or
cut into rows.

## Main Statements

* `splitFirst?_eq_some_iff`, `splitFirst?_eq_none_iff`: the two sides of the first
  separator, and that there is none.
* `trim_eq_self`, `trim_sublist`: what trimming leaves.
* `rows_flatMap`, `newline_not_mem_of_mem_rows`: rows are read back, and hold no line
  feed.
* `rows_append`: a line feed ends a row, whatever stands behind it.
-/

namespace LiveCoding

/-! ### Splitting -/

section Split

variable {α : Type} [DecidableEq α] {separator : α} {behind before text rest : List α}

theorem splitFirstFrom?_append (behind : List α) (h : separator ∉ before) (rest : List α) :
    splitFirstFrom? separator behind (before ++ separator :: rest) =
      some (behind.reverse ++ before, rest) := by
  induction before generalizing behind with
  | nil => simp [splitFirstFrom?]
  | cons c before ih =>
    obtain ⟨hc, hbefore⟩ := not_or.mp (mt List.mem_cons.mpr h)
    rw [List.cons_append, splitFirstFrom?, if_neg (Ne.symm hc), ih _ hbefore]
    simp

theorem splitFirstFrom?_of_not_mem (behind : List α) (h : separator ∉ text) :
    splitFirstFrom? separator behind text = none := by
  induction text generalizing behind with
  | nil => rfl
  | cons c text ih =>
    obtain ⟨hc, htext⟩ := not_or.mp (mt List.mem_cons.mpr h)
    rw [splitFirstFrom?, if_neg (Ne.symm hc), ih _ htext]

/-- A text is split at the first separator in it. -/
theorem splitFirst?_append (h : separator ∉ before) (rest : List α) :
    splitFirst? separator (before ++ separator :: rest) = some (before, rest) :=
  splitFirstFrom?_append [] h rest

theorem splitFirst?_of_not_mem (h : separator ∉ text) : splitFirst? separator text = none :=
  splitFirstFrom?_of_not_mem [] h

/-- **The two sides of the first separator.** -/
theorem splitFirst?_eq_some_iff : splitFirst? separator text = some (before, rest) ↔
    separator ∉ before ∧ text = before ++ separator :: rest := by
  constructor
  · intro h
    by_cases hmem : separator ∈ text
    · obtain ⟨front, back, rfl, hfront⟩ := List.eq_append_cons_of_mem hmem
      rw [splitFirst?_append hfront] at h
      obtain ⟨rfl, rfl⟩ := Prod.mk.inj (Option.some.inj h)
      exact ⟨hfront, rfl⟩
    · rw [splitFirst?_of_not_mem hmem] at h
      contradiction
  · rintro ⟨h, rfl⟩
    exact splitFirst?_append h rest

end Split

/-! ### Trimming -/

section Trim

variable {text : List Char}

theorem trimStart_eq_self (h : ∀ c ∈ text.head?, isBlank c = false) : trimStart text = text := by
  cases text with
  | nil => rfl
  | cons c text =>
    rw [trimStart, List.dropWhile_cons, h c rfl, if_neg Bool.false_ne_true]

theorem trimEnd_eq_self (h : ∀ c ∈ text.getLast?, isBlank c = false) : trimEnd text = text := by
  have start : trimStart text.reverse = text.reverse :=
    trimStart_eq_self (by rwa [List.head?_reverse])
  show (trimStart text.reverse).reverse = text
  rw [start, List.reverse_reverse]

/-- **A text that neither starts nor ends with a blank is left as it is.** -/
theorem trim_eq_self (hhead : ∀ c ∈ text.head?, isBlank c = false)
    (hlast : ∀ c ∈ text.getLast?, isBlank c = false) : trim text = text := by
  rw [trim, trimStart_eq_self hhead, trimEnd_eq_self hlast]

theorem trim_of_not_blank (h : ∀ c ∈ text, isBlank c = false) : trim text = text :=
  trim_eq_self (fun c hc => h c (List.mem_of_mem_head? hc))
    (fun c hc => h c (List.mem_of_mem_getLast? hc))

/-- Trimming adds nothing. -/
theorem trim_sublist (text : List Char) : (trim text).Sublist text := by
  have back : (trimEnd (trimStart text)).Sublist (trimStart text) := by
    have reversed := (List.dropWhile_sublist (l := (trimStart text).reverse) isBlank).reverse
    rwa [List.reverse_reverse] at reversed
  exact back.trans (List.dropWhile_sublist isBlank)

theorem trimEnd_append {front : List Char} (h : ∀ c ∈ front, isBlank c = false)
    (text : List Char) : trimEnd (front ++ text) = front ++ trimEnd text := by
  have kept : front.reverse.dropWhile isBlank = front.reverse :=
    trimStart_eq_self fun c hc => h c (List.mem_reverse.mp (List.mem_of_mem_head? hc))
  rw [trimEnd, trimEnd, List.reverse_append, List.dropWhile_append, kept]
  split
  next hnil =>
    rw [List.isEmpty_iff.mp hnil, List.reverse_nil, List.append_nil, List.reverse_reverse]
  next => rw [List.reverse_append, List.reverse_reverse]

/-- A beginning without blanks is kept. -/
theorem prefix_trim {front : List Char} (h : ∀ c ∈ front, isBlank c = false)
    (begins : front <+: text) : front <+: trim text := by
  obtain ⟨rest, rfl⟩ := begins
  cases front with
  | nil => exact List.nil_prefix
  | cons c front =>
    have start : trimStart (c :: front ++ rest) = c :: front ++ rest :=
      trimStart_eq_self fun d hd => h d (Option.some.inj hd ▸ List.mem_cons_self)
    rw [trim, start, trimEnd_append h]
    exact List.prefix_append _ _

/-- A blank at the end is not kept. -/
theorem trim_concat {c : Char} (h : isBlank c = true) (text : List Char) :
    trim (text ++ [c]) = trim text := by
  have ends (text : List Char) : trimEnd (text ++ [c]) = trimEnd text := by
    rw [trimEnd, List.reverse_concat, List.dropWhile_cons_of_pos h]
    rfl
  have start : trimStart (text ++ [c]) = trimStart text ++ [c] ∨
      trimStart (text ++ [c]) = [] ∧ trimStart text = [] := by
    rw [trimStart, List.dropWhile_append]
    split
    next hnil =>
      refine Or.inr ⟨?_, List.isEmpty_iff.mp hnil⟩
      rw [List.dropWhile_cons_of_pos h]
      rfl
    next => exact Or.inl rfl
  rcases start with kept | ⟨none, none'⟩
  · rw [trim, kept, ends]
    rfl
  · rw [trim, none, trim, none']

end Trim

/-! ### Rows -/

section Rows

variable {row rest : List Char} {found : List (List Char)}

theorem rowsFrom_found (row : List Char) (found : List (List Char)) (text : List Char) :
    rowsFrom row found text = found.reverse ++ rowsFrom row [] text := by
  induction text generalizing row found with
  | nil =>
    rw [rowsFrom, rowsFrom]
    split <;> simp
  | cons c text ih =>
    rw [rowsFrom, rowsFrom]
    split
    · rw [ih, ih _ [_], List.reverse_cons, List.reverse_singleton, List.append_assoc]
    · exact ih _ _

theorem rowsFrom_append_newline (before : List Char) (h : '\n' ∉ row) (rest : List Char) :
    rowsFrom before [] (row ++ '\n' :: rest) =
      (dropReturn (row.reverse ++ before)).reverse :: rows rest := by
  induction row generalizing before with
  | nil =>
    rw [List.nil_append, rowsFrom, if_pos rfl, rowsFrom_found]
    rfl
  | cons c row ih =>
    obtain ⟨hc, hrow⟩ := not_or.mp (mt List.mem_cons.mpr h)
    rw [List.cons_append, rowsFrom, if_neg (Ne.symm hc), ih _ hrow, List.reverse_cons,
      List.append_assoc]
    rfl

/-- A row that does not end with a carriage return is read back. -/
theorem rows_append_newline (h : '\n' ∉ row) (noReturn : row.getLast? ≠ some '\r')
    (rest : List Char) : rows (row ++ '\n' :: rest) = row :: rows rest := by
  have kept : dropReturn row.reverse = row.reverse := by
    unfold dropReturn
    split
    next before heq =>
      rw [← List.head?_reverse, heq] at noReturn
      exact absurd rfl noReturn
    next => rfl
  rw [rows, rowsFrom_append_newline [] h, List.append_nil, kept, List.reverse_reverse]

/-- **Rows are read back**, each in front of a line feed. -/
theorem rows_flatMap {written : List (List Char)} (h : ∀ row ∈ written, '\n' ∉ row)
    (noReturn : ∀ row ∈ written, row.getLast? ≠ some '\r') :
    rows (written.flatMap (· ++ ['\n'])) = written := by
  induction written with
  | nil => rfl
  | cons row written ih =>
    obtain ⟨hrow, hrest⟩ := List.forall_mem_cons.mp h
    obtain ⟨hlast, hlasts⟩ := List.forall_mem_cons.mp noReturn
    rw [List.flatMap_cons, List.append_assoc, List.singleton_append,
      rows_append_newline hrow hlast, ih hrest hlasts]

theorem newline_not_mem_of_mem_rowsFrom {text : List Char} (hbefore : '\n' ∉ row)
    (h : rest ∈ rowsFrom row [] text) : '\n' ∉ rest := by
  induction text generalizing row with
  | nil =>
    rw [rowsFrom] at h
    split at h
    · contradiction
    · obtain rfl := List.mem_singleton.mp h
      rwa [List.mem_reverse]
  | cons c text ih =>
    rw [rowsFrom] at h
    split at h
    next =>
      rw [rowsFrom_found] at h
      rcases List.mem_append.mp h with h | h
      · obtain rfl := List.mem_singleton.mp h
        rw [List.mem_reverse]
        unfold dropReturn
        split
        · exact fun hmem => hbefore (List.mem_cons_of_mem _ hmem)
        · exact hbefore
      · exact ih List.not_mem_nil h
    next hc => exact ih (List.not_mem_cons_of_ne_of_not_mem (Ne.symm hc) hbefore) h

/-- **No row holds a line feed.** -/
theorem newline_not_mem_of_mem_rows {text : List Char} (h : row ∈ rows text) : '\n' ∉ row :=
  newline_not_mem_of_mem_rowsFrom List.not_mem_nil h

theorem rowsFrom_append (row : List Char) (found : List (List Char)) (text rest : List Char) :
    rowsFrom row found (text ++ '\n' :: rest) =
      rowsFrom row found (text ++ ['\n']) ++ rows rest := by
  induction text generalizing row found with
  | nil =>
    rw [List.nil_append, List.nil_append, rowsFrom, if_pos rfl, rowsFrom_found, rowsFrom,
      if_pos rfl]
    rfl
  | cons c text ih =>
    rw [List.cons_append, List.cons_append, rowsFrom, rowsFrom]
    split
    · exact ih _ _
    · exact ih _ _

/-- A line feed ends a row, whatever stands behind it. -/
theorem rows_append (text rest : List Char) :
    rows (text ++ '\n' :: rest) = rows (text ++ ['\n']) ++ rows rest :=
  rowsFrom_append [] [] text rest

theorem dropReturn_append {front : List Char} (h : front.head? ≠ some '\r') (row : List Char) :
    dropReturn (row ++ front) = dropReturn row ++ front := by
  cases row with
  | nil =>
    unfold dropReturn
    split
    next heq =>
      rw [List.nil_append] at heq
      rw [heq] at h
      exact absurd rfl h
    next => rfl
  | cons c row =>
    rw [List.cons_append, dropReturn.eq_def, dropReturn.eq_def (c :: row)]
    by_cases hc : c = '\r'
    · subst hc
      rfl
    · split
      next heq => exact absurd (List.cons.inj heq).1 hc
      next =>
        split
        next heq => exact absurd (List.cons.inj heq).1 hc
        next => rfl

/-- A beginning without line ends is the beginning of the first row. -/
theorem exists_rows_eq {front text : List Char} (hfeed : '\n' ∉ front)
    (hreturn : front.getLast? ≠ some '\r') (begins : front <+: text) :
    ∃ first rest, rows (text ++ ['\n']) = first :: rest ∧ front <+: first := by
  obtain ⟨later, rfl⟩ := begins
  obtain ⟨row, rest, cut, hrow⟩ := List.eq_append_cons_of_mem
    (List.mem_append_right later (List.mem_singleton.mpr (rfl : '\n' = '\n')))
  have clean : '\n' ∉ front ++ row := by
    rw [List.mem_append, not_or]
    exact ⟨hfeed, hrow⟩
  refine ⟨(dropReturn (front ++ row).reverse).reverse, rows rest, ?_, ?_⟩
  · rw [List.append_assoc, cut, ← List.append_assoc, rows, rowsFrom_append_newline [] clean,
      List.append_nil]
  · rw [List.reverse_append, dropReturn_append (by rwa [List.head?_reverse]),
      List.reverse_append, List.reverse_reverse]
    exact List.prefix_append _ _

end Rows

end LiveCoding
