import LiveCoding.Document.Word
import LiveCoding.Text.Numeral
import Mathlib.Data.List.DropRight
import Mathlib.Data.List.Pairwise
import Mathlib.Tactic.Common

/-!
# The names in a line

`Word.columns` walks over a line and notes where names begin and end.  A name begins only
with a letter or an underscore, so digits that a name could go on with stand in front of it
without being part of it: `12ab` holds the name `ab`, and `ab12` is one name.  This module
says which spans are noted, in terms of the line alone: those of the names that are whole.

## Main Definitions

* `Word.Found`: the names that a search from the left finds, each as long as it can be.
* `Word.Parts`: a line around one name that is whole.
* `Word.IsWhole`: a name that is whole, by its columns.

## Main Statements

* `Word.found_columns`: the walk is such a search.
* `Word.Found.mem_iff`: the names found are those that are whole.
* `Word.Found.pairwise`: no two of them touch.
* `Word.touching?_eq_some_iff`: the name at a column.

## Design Notes

The search speaks of what is still to come and a whole name of what stands on both of its
sides.  They meet in `Parts`, which says of a line cut in four what each part has to be:
`Parts.cons` and `Parts.tail` step over a character that starts no name, `Parts.behind` and
`Parts.eq_or_behind` over a whole name.
-/

namespace LiveCoding

namespace Word

/-! ### Characters of names -/

theorem isPart_eq (c : Char) : isPart c = (isStart c || isDigit c) := rfl

theorem isPart_of_isStart {c : Char} (h : isStart c = true) : isPart c = true := by
  rw [isPart_eq, h, Bool.true_or]

theorem isPart_of_isDigit {c : Char} (h : isDigit c = true) : isPart c = true := by
  rw [isPart_eq, h, Bool.or_true]

theorem isStart_of_not_isPart {c : Char} (h : isPart c = false) : isStart c = false := by
  rw [isPart_eq, Bool.or_eq_false_iff] at h
  exact h.1

/-- No name begins with a digit. -/
theorem not_isDigit_of_isStart {c : Char} (h : isStart c = true) : isDigit c = false := by
  simp only [isStart, isDigit, Bool.or_eq_true, Bool.and_eq_true, decide_eq_true_eq, beq_iff_eq,
    Bool.and_eq_false_iff, decide_eq_false_iff_not, Char.le_def, UInt32.le_iff_toNat_le] at h ⊢
  rcases h with (⟨hlow, -⟩ | ⟨hlow, -⟩) | rfl
  · right
    exact fun hhigh => absurd (Nat.le_trans hlow hhigh) (by decide)
  · right
    exact fun hhigh => absurd (Nat.le_trans hlow hhigh) (by decide)
  · decide

theorem isName_cons (c : Char) (rest : List Char) :
    isName (c :: rest) = (isStart c && rest.all isPart) := rfl

theorem exists_cons_of_isName {word : List Char} (h : isName word = true) :
    ∃ c rest, word = c :: rest ∧ isStart c = true := by
  cases word with
  | nil => contradiction
  | cons c rest =>
    rw [isName_cons, Bool.and_eq_true] at h
    exact ⟨c, rest, rfl, h.1⟩

theorem isPart_of_mem {word : List Char} (h : isName word = true) :
    ∀ c ∈ word, isPart c = true := by
  cases word with
  | nil => contradiction
  | cons first rest =>
    rw [isName_cons, Bool.and_eq_true] at h
    intro c hc
    rcases List.mem_cons.mp hc with rfl | hc
    · exact isPart_of_isStart h.1
    · exact List.all_eq_true.mp h.2 c hc

theorem isName_concat {word : List Char} (h : isName word = true) {c : Char}
    (hc : isPart c = true) : isName (word ++ [c]) = true := by
  cases word with
  | nil => contradiction
  | cons first rest =>
    rw [isName_cons, Bool.and_eq_true] at h
    rw [List.cons_append, isName_cons, List.all_append, h.1, h.2]
    simp [hc]

/-! ### The search -/

/-- Nothing that a name could go on with comes first. -/
def EndsName (rest : List Char) : Prop :=
  ∀ c, rest.head? = some c → isPart c = false

/-- The names that a search from the left finds in a text that starts at `column`: from the
first character that begins one, as long as it can be, and then on behind it. -/
inductive Found : Nat → List Char → List Span → Prop
  | nil (column : Nat) : Found column [] []
  | skip {column : Nat} {c : Char} {rest : List Char} {names : List Span}
      (other : isStart c = false) (more : Found (column + 1) rest names) :
      Found column (c :: rest) names
  | name {column : Nat} {word rest : List Char} {names : List Span}
      (isName_word : isName word = true) (ends : EndsName rest)
      (more : Found (column + word.length) rest names) :
      Found column (word ++ rest) (⟨column, column + word.length⟩ :: names)

/-- From outside of a name and from inside of one, the walk goes on to search what is left. -/
theorem exists_columnsFrom (text : List Char) :
    (∀ column found, ∃ names, columnsFrom column none found text = found.reverse ++ names ∧
      Found column text names) ∧
    ∀ word start found, isName word = true → ∃ names,
      columnsFrom (start + word.length) (some start) found text = found.reverse ++ names ∧
        Found start (word ++ text) names := by
  induction text with
  | nil =>
    refine ⟨fun column found => ⟨[], by simp [columnsFrom], .nil column⟩, ?_⟩
    intro word start found isName_word
    have ends : EndsName [] := nofun
    exact ⟨_, by simp [columnsFrom], .name isName_word ends (.nil _)⟩
  | cons c rest ih =>
    obtain ⟨outside, inside⟩ := ih
    refine ⟨?_, ?_⟩
    · intro column found
      rw [columnsFrom]
      cases begins : isStart c with
      | true =>
        have isName_word : isName [c] = true := by simp [isName_cons, begins]
        exact inside [c] column found isName_word
      | false =>
        obtain ⟨names, hnames, more⟩ := outside (column + 1) found
        exact ⟨names, hnames, .skip begins more⟩
    · intro word start found isName_word
      rw [columnsFrom]
      cases goesOn : isPart c with
      | true =>
        obtain ⟨names, hnames, more⟩ :=
          inside (word ++ [c]) start found (isName_concat isName_word goesOn)
        rw [List.length_append, List.length_singleton, ← Nat.add_assoc] at hnames
        rw [List.append_assoc] at more
        exact ⟨names, hnames, more⟩
      | false =>
        obtain ⟨names, hnames, more⟩ :=
          outside (start + word.length + 1) (⟨start, start + word.length⟩ :: found)
        have ends : EndsName (c :: rest) := by
          rintro _ ⟨⟩
          exact goesOn
        refine ⟨_, ?_, .name isName_word ends (.skip (isStart_of_not_isPart goesOn) more)⟩
        rw [if_neg Bool.false_ne_true, hnames]
        simp

/-- **The walk is a search from the left.** -/
theorem found_columns (line : List Char) : Found 0 line (columns line) := by
  obtain ⟨names, hnames, found⟩ := (exists_columnsFrom line).1 0 []
  rw [columns, hnames]
  exact found

/-! ### Whole names -/

/-- A line around one name that is whole: nothing that the name could go on with follows it,
and what stands directly in front of it is digits, behind something that is no part of a
name. -/
structure Parts (line before digits word after : List Char) : Prop where
  line_eq : line = before ++ (digits ++ (word ++ after))
  isName_word : isName word = true
  isDigit_digits : ∀ c ∈ digits, isDigit c = true
  apart : ∀ c, before.getLast? = some c → isPart c = false
  ends : EndsName after

/-- Where no name goes on, some character stands in front of the digits. -/
theorem Parts.before_ne_nil {line before digits word after : List Char}
    (h : Parts line before digits word after) (ends : EndsName line) : before ≠ [] := by
  rintro rfl
  obtain ⟨c, rest, rfl, begins⟩ := exists_cons_of_isName h.isName_word
  cases digits with
  | nil =>
    have stops := ends c (by rw [h.line_eq]; rfl)
    rw [isPart_of_isStart begins] at stops
    contradiction
  | cons d digits =>
    have stops := ends d (by rw [h.line_eq]; rfl)
    rw [isPart_of_isDigit (h.isDigit_digits d List.mem_cons_self)] at stops
    contradiction

section Step

variable {line rest before digits word after : List Char} {c : Char}

/-- A character that begins no name stands in front of the one that is whole. -/
theorem Parts.tail (h : Parts (c :: rest) before digits word after) (other : isStart c = false) :
    ∃ before' digits', Parts rest before' digits' word after ∧
      before ++ digits = c :: (before' ++ digits') := by
  obtain ⟨line_eq, isName_word, isDigit_digits, apart, ends⟩ := h
  cases before with
  | cons b before =>
    obtain ⟨rfl, rfl⟩ := List.cons.inj line_eq
    refine ⟨before, digits, ⟨rfl, isName_word, isDigit_digits, ?_, ends⟩, rfl⟩
    intro last hlast
    exact apart last (by rw [List.getLast?_cons, hlast, Option.getD_some])
  | nil =>
    cases digits with
    | cons d digits =>
      obtain ⟨rfl, rfl⟩ := List.cons.inj line_eq
      have isDigit_tail : ∀ c ∈ digits, isDigit c = true := fun c hc =>
        isDigit_digits c (List.mem_cons_of_mem _ hc)
      exact ⟨[], digits, ⟨rfl, isName_word, isDigit_tail, nofun, ends⟩, rfl⟩
    | nil =>
      -- then the name begins with this character
      obtain ⟨first, more, rfl, begins⟩ := exists_cons_of_isName isName_word
      obtain ⟨rfl, -⟩ := List.cons.inj line_eq
      rw [begins] at other
      contradiction

/-- One more character in front that begins no name leaves the name whole. -/
theorem Parts.cons (h : Parts rest before digits word after) (other : isStart c = false) :
    ∃ before' digits', Parts (c :: rest) before' digits' word after ∧
      before' ++ digits' = c :: (before ++ digits) := by
  obtain ⟨rfl, isName_word, isDigit_digits, apart, ends⟩ := h
  cases before with
  | cons b before =>
    refine ⟨c :: b :: before, digits, ⟨rfl, isName_word, isDigit_digits, ?_, ends⟩, rfl⟩
    rwa [List.getLast?_cons_cons]
  | nil =>
    cases digit : isDigit c with
    | true =>
      have isDigit_cons : ∀ d ∈ c :: digits, isDigit d = true := by
        intro d hd
        rcases List.mem_cons.mp hd with rfl | hd
        · exact digit
        · exact isDigit_digits d hd
      exact ⟨[], c :: digits, ⟨rfl, isName_word, isDigit_cons, nofun, ends⟩, rfl⟩
    | false =>
      refine ⟨[c], digits, ⟨rfl, isName_word, isDigit_digits, ?_, ends⟩, rfl⟩
      intro last hlast
      obtain rfl : c = last := by simpa using hlast
      rw [isPart_eq, other, digit, Bool.or_false]

/-- How far a name goes on is told by the characters alone. -/
theorem takeWhile_isPart (isName_word : isName word = true) (ends : EndsName after) :
    (word ++ after).takeWhile isPart = word := by
  have stops : after.takeWhile isPart = [] := by
    cases after with
    | nil => rfl
    | cons c after => rw [List.takeWhile_cons, ends c rfl, if_neg Bool.false_ne_true]
  rw [List.takeWhile_append_of_pos (isPart_of_mem isName_word), stops, List.append_nil]

variable {first : List Char}

/-- A name at the start of a line that nothing goes on with is whole. -/
theorem parts_name (isName_first : isName first = true) (ends : EndsName rest) :
    Parts (first ++ rest) [] [] first rest :=
  ⟨rfl, isName_first, nofun, nofun, ends⟩

/-- A whole name is the one at the start, or stands behind it. -/
theorem Parts.eq_or_behind (h : Parts (first ++ rest) before digits word after)
    (isName_first : isName first = true) (ends : EndsName rest) :
    before ++ digits = [] ∧ word = first ∨
      ∃ before', before = first ++ before' ∧ Parts rest before' digits word after := by
  obtain ⟨line_eq, isName_word, isDigit_digits, apart, ends_after⟩ := h
  rcases List.append_eq_append_iff.mp line_eq with ⟨before', rfl, rfl⟩ | ⟨more, rfl, hrest⟩
  · refine Or.inr ⟨before', rfl, rfl, isName_word, isDigit_digits, ?_, ends_after⟩
    intro last hlast
    exact apart last (by rw [List.getLast?_append, hlast, Option.some_or])
  · left
    -- a part of the first name is in front, and it is empty: its last character is in the name
    obtain rfl : before = [] := by
      cases hlast : before.getLast? with
      | none => exact List.getLast?_eq_none_iff.mp hlast
      | some c =>
        have stops := apart c hlast
        have goesOn := isPart_of_mem isName_first c
          (List.mem_append_left _ (List.mem_of_getLast? hlast))
        rw [goesOn] at stops
        contradiction
    rw [List.nil_append] at isName_first
    obtain rfl : digits = [] := by
      obtain ⟨c, front, rfl, begins⟩ := exists_cons_of_isName isName_first
      cases digits with
      | nil => rfl
      | cons d digits =>
        obtain ⟨rfl, -⟩ := List.cons.inj hrest
        have digit := isDigit_digits d List.mem_cons_self
        rw [not_isDigit_of_isStart begins] at digit
        exact absurd digit Bool.false_ne_true
    rw [List.nil_append] at hrest
    have same : word = more := by
      rw [← takeWhile_isPart isName_word ends_after, hrest, takeWhile_isPart isName_first ends]
    exact ⟨rfl, same⟩

/-- More in front of a line with which no name goes on leaves the name whole. -/
theorem Parts.behind (h : Parts rest before digits word after) (ends : EndsName rest)
    (first : List Char) : Parts (first ++ rest) (first ++ before) digits word after := by
  have apart_front := h.before_ne_nil ends
  obtain ⟨rfl, isName_word, isDigit_digits, apart, ends_after⟩ := h
  refine ⟨by rw [List.append_assoc], isName_word, isDigit_digits, ?_, ends_after⟩
  intro last hlast
  rw [List.getLast?_append_of_ne_nil _ apart_front] at hlast
  exact apart last hlast

end Step

/-- The columns of a name behind what is in front of it. -/
def spanOf (column : Nat) (front word : List Char) : Span :=
  ⟨column + front.length, column + front.length + word.length⟩

theorem spanOf_cons (column : Nat) (c : Char) (front word : List Char) :
    spanOf column (c :: front) word = spanOf (column + 1) front word := by
  simp only [spanOf, List.length_cons, Span.mk.injEq]
  omega

theorem spanOf_zero (front word : List Char) :
    spanOf 0 front word = ⟨front.length, (front ++ word).length⟩ := by
  simp only [spanOf, Nat.zero_add, List.length_append]

theorem spanOf_append (column : Nat) (first front word : List Char) :
    spanOf column (first ++ front) word = spanOf (column + first.length) front word := by
  simp only [spanOf, List.length_append, Span.mk.injEq]
  omega

/-- **The names found are those that are whole.** -/
theorem Found.mem_iff {column : Nat} {text : List Char} {names : List Span}
    (h : Found column text names) {name : Span} :
    name ∈ names ↔ ∃ before digits word after, Parts text before digits word after ∧
      name = spanOf column (before ++ digits) word := by
  induction h with
  | nil column =>
    refine iff_of_false (List.not_mem_nil) ?_
    rintro ⟨before, digits, word, after, h, -⟩
    obtain ⟨c, rest, rfl, -⟩ := exists_cons_of_isName h.isName_word
    simpa using h.line_eq
  | @skip column c rest names other more ih =>
    rw [ih]
    constructor
    · rintro ⟨before, digits, word, after, h, rfl⟩
      obtain ⟨before', digits', h', front⟩ := h.cons other
      exact ⟨before', digits', word, after, h', by rw [front, spanOf_cons]⟩
    · rintro ⟨before, digits, word, after, h, rfl⟩
      obtain ⟨before', digits', h', front⟩ := h.tail other
      exact ⟨before', digits', word, after, h', by rw [front, spanOf_cons]⟩
  | @name column first rest names isName_first ends more ih =>
    rw [List.mem_cons, ih]
    constructor
    · rintro (rfl | ⟨before, digits, word, after, h, rfl⟩)
      · exact ⟨[], [], first, rest, parts_name isName_first ends, rfl⟩
      · refine ⟨first ++ before, digits, word, after, h.behind ends first, ?_⟩
        rw [List.append_assoc first, spanOf_append column first]
    · rintro ⟨before, digits, word, after, h, rfl⟩
      rcases h.eq_or_behind isName_first ends with ⟨front, rfl⟩ | ⟨before', rfl, h'⟩
      · rw [front]
        exact Or.inl rfl
      · refine Or.inr ⟨before', digits, word, after, h', ?_⟩
        rw [List.append_assoc first, spanOf_append column first]

/-- **No two names touch**: some character is between them. -/
theorem Found.pairwise {column : Nat} {text : List Char} {names : List Span}
    (h : Found column text names) : names.Pairwise fun name later => name.stop < later.start := by
  induction h with
  | nil => exact List.Pairwise.nil
  | skip _ _ ih => exact ih
  | @name column first rest names isName_first ends more ih =>
    refine List.Pairwise.cons ?_ ih
    intro later hlater
    obtain ⟨before, digits, word, after, h, rfl⟩ := more.mem_iff.mp hlater
    have front := List.length_pos_iff.mpr (h.before_ne_nil ends)
    simp only [spanOf, List.length_append]
    omega

/-! ### Whole names by their columns -/

/-- A name that is whole, by its columns: no character of a name follows it, and those
directly in front of it are all digits. -/
structure IsWhole (line : List Char) (start stop : Nat) : Prop where
  within : stop ≤ line.length
  isName_slice : isName ((line.take stop).drop start) = true
  ends : EndsName (line.drop stop)
  starts : ∀ c ∈ (line.take start).rtakeWhile isPart, isDigit c = true

theorem IsWhole.lt {line : List Char} {start stop : Nat} (h : IsWhole line start stop) :
    start < stop := by
  by_contra hle
  have empty : (line.take stop).drop start = [] :=
    List.drop_eq_nil_of_le (Nat.le_trans (List.length_take_le _ _) (Nat.le_of_not_lt hle))
  have named := h.isName_slice
  rw [empty] at named
  contradiction

/-- What a name could go on with, read backwards, stops where `apart` says. -/
theorem rtakeWhile_isPart {before digits : List Char}
    (isDigit_digits : ∀ c ∈ digits, isDigit c = true)
    (apart : ∀ c, before.getLast? = some c → isPart c = false) :
    (before ++ digits).rtakeWhile isPart = digits := by
  have stops : before.reverse.takeWhile isPart = [] := by
    cases hreverse : before.reverse with
    | nil => rfl
    | cons c more =>
      have last := apart c (by rw [← List.head?_reverse, hreverse, List.head?_cons])
      rw [List.takeWhile_cons, last, if_neg Bool.false_ne_true]
  have goesOn : ∀ c ∈ digits.reverse, isPart c = true := fun c hc =>
    isPart_of_isDigit (isDigit_digits c (List.mem_reverse.mp hc))
  rw [List.rtakeWhile, List.reverse_append, List.takeWhile_append_of_pos goesOn, stops,
    List.append_nil, List.reverse_reverse]

theorem Parts.isWhole {line before digits word after : List Char}
    (h : Parts line before digits word after) :
    IsWhole line (before ++ digits).length (before ++ digits ++ word).length := by
  obtain ⟨rfl, isName_word, isDigit_digits, apart, ends⟩ := h
  have front : before ++ (digits ++ (word ++ after)) = before ++ digits ++ (word ++ after) := by
    rw [List.append_assoc]
  have whole : before ++ (digits ++ (word ++ after)) = before ++ digits ++ word ++ after := by
    rw [front, ← List.append_assoc (before ++ digits)]
  refine ⟨?_, ?_, ?_, ?_⟩
  · rw [whole]
    exact (List.prefix_append _ _).length_le
  · rwa [whole, List.take_left, List.drop_left]
  · rwa [whole, List.drop_left]
  · rw [front, List.take_left, rtakeWhile_isPart isDigit_digits apart]
    exact isDigit_digits

theorem IsWhole.exists_parts {line : List Char} {start stop : Nat} (h : IsWhole line start stop) :
    ∃ before digits word after, Parts line before digits word after ∧
      start = (before ++ digits).length ∧ stop = (before ++ digits ++ word).length := by
  have hlt := h.lt
  have within := h.within
  have front : (line.take start).rdropWhile isPart ++ (line.take start).rtakeWhile isPart =
      line.take start := List.rdropWhile_append_rtakeWhile
  have middle : line.take start ++ (line.take stop).drop start = line.take stop := by
    have halves := List.take_append_drop start (line.take stop)
    rwa [List.take_take, Nat.min_eq_left (Nat.le_of_lt hlt)] at halves
  refine ⟨(line.take start).rdropWhile isPart, (line.take start).rtakeWhile isPart,
    (line.take stop).drop start, line.drop stop, ⟨?_, h.isName_slice, h.starts, ?_, h.ends⟩, ?_, ?_⟩
  · rw [← List.append_assoc, front, ← List.append_assoc, middle, List.take_append_drop]
  · intro c hc
    obtain ⟨hne, rfl⟩ := List.mem_getLast?_eq_getLast hc
    exact Bool.not_eq_true _ ▸ List.rdropWhile_last_not isPart _ hne
  · rw [front, List.length_take]
    omega
  · rw [front, middle, List.length_take]
    omega

/-- **The names noted in a line are those that are whole.** -/
theorem mem_columns_iff {line : List Char} {name : Span} :
    name ∈ columns line ↔ IsWhole line name.start name.stop := by
  rw [(found_columns line).mem_iff]
  constructor
  · rintro ⟨before, digits, word, after, h, rfl⟩
    rw [spanOf_zero]
    exact h.isWhole
  · intro h
    obtain ⟨before, digits, word, after, parts, hstart, hstop⟩ := h.exists_parts
    exact ⟨before, digits, word, after, parts, by rw [spanOf_zero, ← hstart, ← hstop]⟩

/-! ### The name at a column -/

/-- A whole name and a column of one of its characters, or right behind; a column past the
end of the line is the end. -/
structure Touches (line : List Char) (column start stop : Nat) : Prop where
  isWhole : IsWhole line start stop
  start_le : start ≤ min column line.length
  le_stop : min column line.length ≤ stop

/-- Of two names in a line, one ends in front of the other. -/
theorem apart_of_mem_columns {line : List Char} {name other : Span} (h : name ∈ columns line)
    (h' : other ∈ columns line) (differ : name ≠ other) :
    name.stop < other.start ∨ other.stop < name.start := by
  have apart := (found_columns line).pairwise
  have all : ∀ x ∈ columns line, ∀ y ∈ columns line, x ≠ y → x.stop < y.start ∨ y.stop < x.start :=
    List.Pairwise.forall_of_forall_of_flip (fun x _ differ => absurd rfl differ)
      (apart.imp fun hlt _ => Or.inl hlt) (apart.imp fun hlt _ => Or.inr hlt)
  exact all name h other h' differ

/-- **At most one name is touched.** -/
theorem Touches.unique {line : List Char} {column start stop start' stop' : Nat}
    (h : Touches line column start stop) (h' : Touches line column start' stop') :
    start = start' ∧ stop = stop' := by
  obtain ⟨whole, start_le, le_stop⟩ := h
  obtain ⟨whole', start_le', le_stop'⟩ := h'
  have same : (⟨start, stop⟩ : Span) = ⟨start', stop'⟩ := by
    by_contra differ
    have apart :=
      apart_of_mem_columns (mem_columns_iff.mpr whole) (mem_columns_iff.mpr whole') differ
    dsimp only at apart
    omega
  exact Span.mk.inj same

theorem touches_of_touching? {line : List Char} {column : Nat} {name : Span}
    (h : touching? line column = some name) : Touches line column name.start name.stop := by
  have touched := List.find?_some h
  rw [Bool.and_eq_true, decide_eq_true_eq, decide_eq_true_eq] at touched
  exact ⟨mem_columns_iff.mp (List.mem_of_find?_eq_some h), touched.1, touched.2⟩

/-- **The name at a column** is the one that it touches. -/
theorem touching?_eq_some_iff {line : List Char} {column : Nat} {name : Span} :
    touching? line column = some name ↔ Touches line column name.start name.stop := by
  refine ⟨touches_of_touching?, fun h => ?_⟩
  cases found : touching? line column with
  | none =>
    have missed := List.find?_eq_none.mp found name (mem_columns_iff.mpr h.isWhole)
    simp [h.start_le, h.le_stop] at missed
  | some other =>
    obtain ⟨hstart, hstop⟩ := (touches_of_touching? found).unique h
    exact congrArg some (congrArg₂ Span.mk hstart hstop)

/-- Every column that a whole name reaches, or ends at, touches it. -/
theorem IsWhole.touches {line : List Char} {start stop column : Nat} (h : IsWhole line start stop)
    (hstart : start ≤ column) (hstop : column ≤ stop) : Touches line column start stop := by
  have within := h.within
  have hlt := h.lt
  exact ⟨h, by omega, by omega⟩

end Word

end LiveCoding
