import LiveCoding.Proofs.Block.Balance

/-!
# The innermost enclosing block

`Block.locate` runs two scans in opposite directions, each with a depth counter of
its own.  Here it is shown what the two find together, on every text, whether its
brackets are balanced or not: the innermost pair of brackets around the cursor, and
nothing exactly where there is no such pair.

## Main Definitions

* `Block.Balanced`: bytes whose brackets are balanced, by counts alone.
* `Block.IsPair`: two brackets with balanced bytes between them.
* `Block.Encloses`: a pair with the cursor behind the first and not behind the
  second.
* `Block.IsInnermost`: such a pair with no other one inside it.

## Design Notes

The two scans meet in one fact: the backward scan stops at `o` exactly if the bytes
between `o` and the cursor are balanced (`openBefore?_eq_some_iff`), and the forward
scan from there stops at `c` exactly if those between `o` and `c` are
(`closeAfter?_eq_some_iff`).  Everything else compares `inside text o` for two ends,
one of which is a prefix of the other.
-/

namespace LiveCoding

namespace Block

/-- Bytes with as many closing as opening parentheses, and in no prefix more. -/
def Balanced (bytes : List UInt8) : Prop :=
  bytes.count opening = bytes.count closing ∧
    ∀ front, front <+: bytes → front.count closing ≤ front.count opening

theorem opening_ne_closing : opening ≠ closing := by decide

theorem balanced_iff (bytes : List UInt8) :
    Balanced bytes ↔ BalancedFrom opening closing 0 bytes := by
  simp only [Balanced, BalancedFrom, Nat.zero_add]

/-- A pair of parentheses around balanced bytes is balanced. -/
theorem Balanced.enclosed {bytes : List UInt8} (h : Balanced bytes) :
    Balanced (opening :: (bytes ++ [closing])) :=
  (balanced_iff _).mpr (((balanced_iff _).mp h).enclosed opening_ne_closing)

/-- The bytes strictly between two offsets. -/
def inside (text : List UInt8) (o c : Nat) : List UInt8 :=
  (text.take c).drop (o + 1)

/-- A pair of brackets: an opening and a closing parenthesis with balanced bytes
between them. -/
structure IsPair (text : List UInt8) (o c : Nat) : Prop where
  lt : o < c
  opens : text[o]? = some opening
  closes : text[c]? = some closing
  balanced : Balanced (inside text o c)

/-- A pair of brackets around the cursor: it stands behind the opening one and
at most right in front of the closing one. -/
structure Encloses (text : List UInt8) (cursor o c : Nat) : Prop extends IsPair text o c where
  behind : o < cursor
  within : cursor ≤ c

/-- The innermost pair around the cursor: no other one opens behind it. -/
structure IsInnermost (text : List UInt8) (cursor o c : Nat) : Prop
    extends Encloses text cursor o c where
  innermost : ∀ o' c', Encloses text cursor o' c' → ¬ o < o'

/-! ### Bytes between two offsets -/

theorem inside_mono (text : List UInt8) (o : Nat) {c c' : Nat} (h : c ≤ c') :
    inside text o c <+: inside text o c' := by
  rw [inside, inside, List.drop_take, List.drop_take]
  exact List.take_prefix_take_left (by omega)

/-- A front of a text, cut at an offset. -/
theorem take_eq_append {text : List UInt8} {m c : Nat} {b : UInt8} (hmc : m < c)
    (hb : text[m]? = some b) : text.take c = text.take m ++ b :: inside text m c := by
  obtain ⟨inRange, hb⟩ := List.getElem?_eq_some_iff.mp hb
  have inTake : m < (text.take c).length := by
    rw [List.length_take]
    omega
  calc text.take c
      = (text.take c).take m ++ (text.take c).drop m := (List.take_append_drop m _).symm
    _ = text.take m ++ b :: inside text m c := by
      rw [List.take_take, Nat.min_eq_left (Nat.le_of_lt hmc), List.drop_eq_getElem_cons inTake,
        List.getElem_take, hb]
      rfl

/-- The bytes between two offsets, cut at a third one. -/
theorem inside_eq_append {text : List UInt8} {o m c : Nat} {b : UInt8}
    (hom : o < m) (hmc : m < c) (hb : text[m]? = some b) :
    inside text o c = inside text o m ++ b :: inside text m c := by
  have inRange := (List.getElem?_eq_some_iff.mp hb).1
  rw [inside, take_eq_append hmc hb, List.drop_append_of_le_length]
  · rfl
  · rw [List.length_take]
    omega

/-! ### What the scans find -/

theorem openBefore?_eq_map (depth : Nat) (bytes : List UInt8) :
    openBefore? depth bytes =
      (unmatched? closing opening depth bytes).map (bytes.length - 1 - ·) := by
  induction bytes generalizing depth with
  | nil => rfl
  | cons b earlier ih =>
    have shift : ∀ d, openBefore? d earlier =
        ((unmatched? closing opening d earlier).map (· + 1)).map
          ((b :: earlier).length - 1 - ·) := by
      intro d
      rw [ih, Option.map_map]
      congr 1
      funext n
      simp only [Function.comp_apply, List.length_cons]
      omega
    by_cases hclosing : b = closing
    · subst hclosing
      rw [unmatched?_cons_up, ← shift]
      simp [openBefore?]
    by_cases hopening : b = opening
    · subst hopening
      cases depth with
      | zero =>
        rw [unmatched?_cons_down_zero opening_ne_closing.symm]
        simp [openBefore?, hclosing]
      | succ depth =>
        rw [unmatched?_cons_down_succ opening_ne_closing.symm, ← shift]
        simp [openBefore?, hclosing]
    · rw [unmatched?_cons_of_ne hclosing hopening, ← shift]
      simp [openBefore?, hclosing, hopening]

theorem closeAfter?_eq_map (offset depth : Nat) (bytes : List UInt8) :
    closeAfter? offset depth bytes =
      (unmatched? opening closing depth bytes).map (offset + ·) := by
  induction bytes generalizing offset depth with
  | nil => rfl
  | cons b later ih =>
    have shift : ∀ d, closeAfter? (offset + 1) d later =
        ((unmatched? opening closing d later).map (· + 1)).map (offset + ·) := by
      intro d
      rw [ih, Option.map_map]
      congr 1
      funext n
      simp only [Function.comp_apply]
      omega
    by_cases hopening : b = opening
    · subst hopening
      rw [unmatched?_cons_up, ← shift]
      simp [closeAfter?]
    by_cases hclosing : b = closing
    · subst hclosing
      cases depth with
      | zero =>
        rw [unmatched?_cons_down_zero opening_ne_closing]
        simp [closeAfter?, hopening]
      | succ depth =>
        rw [unmatched?_cons_down_succ opening_ne_closing, ← shift]
        simp [closeAfter?, hopening]
    · rw [unmatched?_cons_of_ne hopening hclosing, ← shift]
      simp [closeAfter?, hopening, hclosing]

/-- The bytes read before the backward scan comes to an offset. -/
theorem reverse_take_take {text : List UInt8} {cursor o : Nat} (hcursor : cursor ≤ text.length)
    (ho : o < cursor) :
    (text.take cursor).reverse.take (cursor - 1 - o) = (inside text o cursor).reverse := by
  rw [List.take_reverse, List.length_take, Nat.min_eq_left hcursor, inside,
    show cursor - (cursor - 1 - o) = o + 1 by omega]

/-- **The backward scan** finds the opening parenthesis with balanced bytes between
it and the cursor. -/
theorem openBefore?_eq_some_iff {text : List UInt8} {cursor : Nat} (o : Nat)
    (hcursor : cursor ≤ text.length) :
    openBefore? 0 (text.take cursor).reverse = some o ↔
      o < cursor ∧ text[o]? = some opening ∧ Balanced (inside text o cursor) := by
  have hlength : (text.take cursor).reverse.length = cursor := by
    rw [List.length_reverse, List.length_take, Nat.min_eq_left hcursor]
  -- the scan counts backwards from the cursor
  have read : ∀ {o}, o < cursor →
      (unmatched? closing opening 0 (text.take cursor).reverse = some (cursor - 1 - o) ↔
        text[o]? = some opening ∧ Balanced (inside text o cursor)) := by
    intro o ho
    have inRange : cursor - 1 - o < (text.take cursor).length := by
      rw [← List.length_reverse, hlength]
      omega
    have place : (text.take cursor).length - 1 - (cursor - 1 - o) = o := by
      rw [← List.length_reverse, hlength]
      omega
    rw [unmatched?_eq_some_iff opening_ne_closing.symm, reverse_take_take hcursor ho,
      balancedFrom_reverse, ← balanced_iff, List.getElem?_reverse inRange, place,
      List.getElem?_take_of_lt ho]
  rw [openBefore?_eq_map, hlength, Option.map_eq_some_iff]
  constructor
  · rintro ⟨n, hn, rfl⟩
    have inRange := (List.getElem?_eq_some_iff.mp
      ((unmatched?_eq_some_iff opening_ne_closing.symm _ _ _).mp hn).1).1
    have before : cursor - 1 - n < cursor := by omega
    refine ⟨before, (read before).mp ?_⟩
    rwa [show cursor - 1 - (cursor - 1 - n) = n by omega]
  · rintro ⟨ho, found⟩
    exact ⟨cursor - 1 - o, (read ho).mpr found, by omega⟩

/-- **The forward scan** finds the closing parenthesis with balanced bytes between
the opening one and it. -/
theorem closeAfter?_eq_some_iff (text : List UInt8) (o c : Nat) :
    closeAfter? (o + 1) 0 (text.drop (o + 1)) = some c ↔
      o < c ∧ text[c]? = some closing ∧ Balanced (inside text o c) := by
  have read : ∀ n, unmatched? opening closing 0 (text.drop (o + 1)) = some n ↔
      text[o + 1 + n]? = some closing ∧ Balanced (inside text o (o + 1 + n)) := by
    intro n
    rw [unmatched?_eq_some_iff opening_ne_closing, ← balanced_iff, List.getElem?_drop, inside,
      List.drop_take, show o + 1 + n - (o + 1) = n by omega]
  rw [closeAfter?_eq_map, Option.map_eq_some_iff]
  constructor
  · rintro ⟨n, hn, rfl⟩
    exact ⟨by omega, (read n).mp hn⟩
  · rintro ⟨ho, found⟩
    refine ⟨c - (o + 1), (read _).mpr ?_, by omega⟩
    rwa [show o + 1 + (c - (o + 1)) = c by omega]

/-! ### The pair that is found -/

/-- The forward scan never ends in front of the cursor: up to there the brackets
behind the open one are balanced, and its partner would be one too many. -/
theorem cursor_le_of_balanced {text : List UInt8} {cursor o c : Nat} (hoc : o < c)
    (hclose : text[c]? = some closing) (toCursor : Balanced (inside text o cursor))
    (toClose : Balanced (inside text o c)) : cursor ≤ c := by
  by_contra hlt
  -- up to the partner, what is in front of the cursor closes once too often
  rw [inside_eq_append hoc (Nat.lt_of_not_le hlt) hclose] at toCursor
  have := toCursor.2 (inside text o c ++ [closing]) (by simp)
  rw [List.count_append, List.count_append, List.count_singleton_self,
    List.count_singleton, if_neg (by decide)] at this
  have := toClose.1
  omega

/-- A parenthesis that the backward scan stops at has no pair around the cursor
inside it. -/
theorem not_encloses_of_balanced {text : List UInt8} {cursor o : Nat}
    (toCursor : Balanced (inside text o cursor)) {o' c' : Nat} (hoo : o < o') :
    ¬ Encloses text cursor o' c' := by
  intro pair
  -- from the inner parenthesis on, more are opened than closed in front of the cursor
  have cut := inside_eq_append hoo pair.behind pair.opens
  have back := ((balanced_iff _).mp toCursor).count_suffix_le
    (cut ▸ List.suffix_append (inside text o o') (opening :: inside text o' cursor))
  have front := pair.balanced.2 _ (inside_mono text o' pair.within)
  rw [List.count_cons_self, List.count_cons_of_ne opening_ne_closing] at back
  omega

/-- Around a cursor inside a pair the backward scan stops, at the pair's opening
parenthesis or behind it. -/
theorem Encloses.exists_openBefore? {text : List UInt8} {cursor o c : Nat}
    (pair : Encloses text cursor o c) (hcursor : cursor ≤ text.length) :
    ∃ o', o ≤ o' ∧ openBefore? 0 (text.take cursor).reverse = some o' := by
  have inRange := (List.getElem?_eq_some_iff.mp pair.opens).1
  have front := pair.balanced.2 _ (inside_mono text o pair.within)
  have cut : (text.take cursor).reverse =
      ((inside text o cursor).reverse ++ [opening]) ++ (text.take o).reverse := by
    rw [take_eq_append pair.behind pair.opens]
    simp
  obtain ⟨n, hn⟩ : ∃ n, unmatched? closing opening 0
      ((inside text o cursor).reverse ++ [opening]) = some n := by
    apply exists_unmatched? opening_ne_closing.symm
    rw [List.count_append, List.count_append, List.count_reverse, List.count_reverse,
      List.count_singleton_self, List.count_singleton, if_neg (by decide)]
    omega
  have reached : n < (inside text o cursor).length + 1 := by
    have := (List.getElem?_eq_some_iff.mp
      ((unmatched?_eq_some_iff opening_ne_closing.symm _ _ _).mp hn).1).1
    simpa using this
  have hinside : (inside text o cursor).length = cursor - (o + 1) := by
    rw [inside, List.length_drop, List.length_take, Nat.min_eq_left hcursor]
  refine ⟨cursor - 1 - n, by have := pair.behind; omega, ?_⟩
  rw [openBefore?_eq_map, List.length_reverse, List.length_take, Nat.min_eq_left hcursor, cut,
    unmatched?_append opening_ne_closing.symm hn]
  rfl

/-- Behind any opening parenthesis between the pair's own one and the cursor the
forward scan stops. -/
theorem Encloses.exists_closeAfter? {text : List UInt8} {cursor o c o' : Nat}
    (pair : Encloses text cursor o c) (hoo : o ≤ o') (hbehind : o' < cursor)
    (hopen : text[o']? = some opening) :
    ∃ c', closeAfter? (o' + 1) 0 (text.drop (o' + 1)) = some c' := by
  rcases Nat.eq_or_lt_of_le hoo with rfl | hoo
  · exact ⟨c, (closeAfter?_eq_some_iff text o c).mpr ⟨pair.lt, pair.closes, pair.balanced⟩⟩
  · have hoc : o' < c := Nat.lt_of_lt_of_le hbehind pair.within
    have cut := inside_eq_append hoo hoc hopen
    have back := ((balanced_iff _).mp pair.balanced).count_suffix_le
      (cut ▸ List.suffix_append (inside text o o') (opening :: inside text o' c))
    rw [List.count_cons_self, List.count_cons_of_ne opening_ne_closing] at back
    obtain ⟨n, hn⟩ := exists_unmatched? opening_ne_closing 0 (inside text o' c) (by omega)
    have found := unmatched?_append opening_ne_closing hn
      ((text.drop (o' + 1)).drop (c - (o' + 1)))
    rw [inside, List.drop_take, List.take_append_drop] at found
    exact ⟨o' + 1 + n, by rw [closeAfter?_eq_map, found]; rfl⟩

/-- The scans of a block without the last check on what they found. -/
theorem locate_eq_bind (text : List UInt8) (cursor : Nat) :
    locate text cursor =
      if text.length < cursor then none
      else (openBefore? 0 (text.take cursor).reverse).bind fun o =>
        (closeAfter? (o + 1) 0 (text.drop (o + 1))).map fun c => ⟨o, c + 1⟩ := by
  unfold locate
  by_cases hcursor : text.length < cursor
  · simp [hcursor]
  rw [if_neg hcursor, if_neg hcursor]
  cases hopen : openBefore? 0 (text.take cursor).reverse with
  | none => rfl
  | some o =>
    cases hclose : closeAfter? (o + 1) 0 (text.drop (o + 1)) with
    | none => simp [hclose]
    | some c =>
      obtain ⟨hbehind, -, toCursor⟩ :=
        (openBefore?_eq_some_iff o (Nat.le_of_not_lt hcursor)).mp hopen
      obtain ⟨hoc, hclosing, toClose⟩ := (closeAfter?_eq_some_iff text o c).mp hclose
      have hwithin := cursor_le_of_balanced hoc hclosing toCursor toClose
      have unguarded : ¬ (cursor < o ∨ c < cursor) := by omega
      simp [hclose, unguarded]

theorem Encloses.cursor_le_length {text : List UInt8} {cursor o c : Nat}
    (pair : Encloses text cursor o c) : cursor ≤ text.length := by
  have inRange := (List.getElem?_eq_some_iff.mp pair.closes).1
  have := pair.within
  omega

/-- The pair that the scans find is the innermost one around the cursor. -/
theorem isInnermost_of_scans {text : List UInt8} {cursor o c : Nat}
    (hcursor : cursor ≤ text.length)
    (hopen : openBefore? 0 (text.take cursor).reverse = some o)
    (hclose : closeAfter? (o + 1) 0 (text.drop (o + 1)) = some c) :
    IsInnermost text cursor o c := by
  obtain ⟨hbehind, hopening, toCursor⟩ := (openBefore?_eq_some_iff o hcursor).mp hopen
  obtain ⟨hoc, hclosing, toClose⟩ := (closeAfter?_eq_some_iff text o c).mp hclose
  exact
    { lt := hoc
      opens := hopening
      closes := hclosing
      balanced := toClose
      behind := hbehind
      within := cursor_le_of_balanced hoc hclosing toCursor toClose
      innermost := fun _ _ inner hoo => not_encloses_of_balanced toCursor hoo inner }

/-- Where there is a pair around the cursor, both scans stop. -/
theorem Encloses.exists_scans {text : List UInt8} {cursor o c : Nat}
    (pair : Encloses text cursor o c) :
    ∃ o' c', openBefore? 0 (text.take cursor).reverse = some o' ∧
      closeAfter? (o' + 1) 0 (text.drop (o' + 1)) = some c' ∧ o ≤ o' := by
  have hcursor := pair.cursor_le_length
  obtain ⟨o', hoo, hopen⟩ := pair.exists_openBefore? hcursor
  obtain ⟨hbehind, hopening, -⟩ := (openBefore?_eq_some_iff o' hcursor).mp hopen
  obtain ⟨c', hclose⟩ := pair.exists_closeAfter? hoo hbehind hopening
  exact ⟨o', c', hopen, hclose, hoo⟩

/-- A bracket has one partner only. -/
theorem IsPair.close_unique {text : List UInt8} {o c c' : Nat} (pair : IsPair text o c)
    (pair' : IsPair text o c') : c = c' := by
  have found := (closeAfter?_eq_some_iff text o c).mpr ⟨pair.lt, pair.closes, pair.balanced⟩
  rw [(closeAfter?_eq_some_iff text o c').mpr ⟨pair'.lt, pair'.closes, pair'.balanced⟩] at found
  exact (Option.some.inj found).symm

/-- A block is found exactly where it is the innermost pair around the cursor. -/
theorem locate_eq_some_iff (text : List UInt8) (cursor : Nat) (span : Span) :
    locate text cursor = some span ↔
      ∃ o c, span = ⟨o, c + 1⟩ ∧ IsInnermost text cursor o c := by
  rw [locate_eq_bind]
  constructor
  · intro found
    split at found
    · contradiction
    next hcursor =>
      obtain ⟨o, hopen, found⟩ := Option.bind_eq_some_iff.mp found
      obtain ⟨c, hclose, rfl⟩ := Option.map_eq_some_iff.mp found
      exact ⟨o, c, rfl, isInnermost_of_scans (Nat.le_of_not_lt hcursor) hopen hclose⟩
  · rintro ⟨o, c, rfl, pair⟩
    have hcursor := pair.cursor_le_length
    obtain ⟨o', c', hopen, hclose, hoo⟩ := pair.exists_scans
    have pair' := isInnermost_of_scans hcursor hopen hclose
    -- neither pair is inside the other one
    obtain rfl : o = o' := by
      have := pair.innermost o' c' pair'.toEncloses
      omega
    obtain rfl := pair.close_unique pair'.toIsPair
    rw [if_neg (Nat.not_lt_of_le hcursor), hopen, Option.bind_some, hclose]
    rfl

/-- No block is found exactly where no pair is around the cursor. -/
theorem locate_eq_none_iff (text : List UInt8) (cursor : Nat) :
    locate text cursor = none ↔ ∀ o c, ¬ Encloses text cursor o c := by
  constructor
  · intro missing o c pair
    obtain ⟨o', c', hopen, hclose, -⟩ := pair.exists_scans
    have pair' := isInnermost_of_scans pair.cursor_le_length hopen hclose
    rw [(locate_eq_some_iff text cursor _).mpr ⟨o', c', rfl, pair'⟩] at missing
    contradiction
  · intro missing
    cases found : locate text cursor with
    | none => rfl
    | some span =>
      obtain ⟨o, c, -, pair⟩ := (locate_eq_some_iff text cursor span).mp found
      exact absurd pair.toEncloses (missing o c)

-- a parenthesis without a partner hides nothing
example : locate [40, 40, 97, 41] 2 = some ⟨1, 4⟩ := by decide

/-- Around a cursor inside a pair there is an innermost one. -/
theorem Encloses.exists_isInnermost {text : List UInt8} {cursor o c : Nat}
    (pair : Encloses text cursor o c) : ∃ o' c', IsInnermost text cursor o' c' := by
  obtain ⟨o', c', hopen, hclose, -⟩ := pair.exists_scans
  exact ⟨o', c', isInnermost_of_scans pair.cursor_le_length hopen hclose⟩

/-- **The block around a cursor, on every text.**  It is the innermost pair of
brackets around the cursor; there is none exactly if the cursor is past the end or
no pair is around it, so that brackets without a partner hide nothing; and the last
check of `locate` never refuses what the scans have found. -/
theorem locate_finds_innermost (text : List UInt8) (cursor : Nat) :
    (∀ span, locate text cursor = some span ↔
      ∃ o c, span = ⟨o, c + 1⟩ ∧ cursor ≤ text.length ∧ IsInnermost text cursor o c) ∧
    (locate text cursor = none ↔
      text.length < cursor ∨ ∀ o c, ¬ Encloses text cursor o c) ∧
    locate text cursor =
      if text.length < cursor then none
      else (openBefore? 0 (text.take cursor).reverse).bind fun o =>
        (closeAfter? (o + 1) 0 (text.drop (o + 1))).map fun c => ⟨o, c + 1⟩ := by
  refine ⟨?_, ?_, locate_eq_bind text cursor⟩
  · intro span
    rw [locate_eq_some_iff]
    constructor
    · rintro ⟨o, c, rfl, pair⟩
      exact ⟨o, c, rfl, pair.cursor_le_length, pair⟩
    · rintro ⟨o, c, rfl, -, pair⟩
      exact ⟨o, c, rfl, pair⟩
  · rw [locate_eq_none_iff]
    constructor
    · exact Or.inr
    · rintro (past | missing)
      · intro o c pair
        exact absurd pair.cursor_le_length (Nat.not_le_of_lt past)
      · exact missing

end Block

end LiveCoding
