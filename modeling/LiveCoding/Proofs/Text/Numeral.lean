import LiveCoding.Text.Blank
import LiveCoding.Text.Numeral

/-!
# Numerals read back

A number written in decimal digits is read as the same number, as long as it is
within the limit of its kind.

## Main Statements

* `readUpTo?_toDigits`: the digits of a number are read back.
* `readUnsigned?_zeros`: so are those of an unsigned number, zeros in front or not.
* `readSigned?_toString`, `readSigned?_eq_some`: so is a signed number with its sign, and
  no number is read that is out of range.
-/

namespace LiveCoding

theorem isDigit_digitChar {d : Nat} (h : d < 10) : isDigit (Nat.digitChar d) = true := by
  have digits : ∀ d : Fin 10, isDigit (Nat.digitChar d) = true := by decide
  exact digits ⟨d, h⟩

theorem digitValue_digitChar {d : Nat} (h : d < 10) : digitValue (Nat.digitChar d) = d := by
  have digits : ∀ d : Fin 10, digitValue (Nat.digitChar d) = d := by decide
  exact digits ⟨d, h⟩

theorem isDigit_of_mem_toDigits {n : Nat} {c : Char} (h : c ∈ Nat.toDigits 10 n) :
    isDigit c = true := by
  have digit := Nat.isDigit_of_mem_toDigits (by decide) (by decide) h
  rw [Char.isDigit, Bool.and_eq_true, decide_eq_true_eq, decide_eq_true_eq] at digit
  rw [isDigit, Bool.and_eq_true, decide_eq_true_eq, decide_eq_true_eq]
  exact digit

/-- No digit is blank. -/
theorem isBlank_of_isDigit {c : Char} (h : isDigit c = true) : isBlank c = false := by
  rw [isDigit, Bool.and_eq_true, decide_eq_true_eq, decide_eq_true_eq] at h
  have lower : 48 ≤ c.toNat := h.1
  have upper : c.toNat ≤ 57 := h.2
  simp only [isBlank, blankRanges, List.any_cons, List.any_nil, Bool.or_false,
    Bool.or_eq_false_iff, Bool.and_eq_false_iff, decide_eq_false_iff_not]
  omega

theorem pushDigit?_digitChar {limit value d : Nat} (hd : d < 10) (h : value * 10 + d ≤ limit) :
    pushDigit? limit value (Nat.digitChar d) = some (value * 10 + d) := by
  rw [pushDigit?, isDigit_digitChar hd, digitValue_digitChar hd, Bool.not_true,
    if_neg Bool.false_ne_true, if_neg (Nat.not_lt_of_le h)]

/-- The digits of a number, one after the other. -/
theorem foldlM_toDigits {limit n : Nat} (h : n ≤ limit) :
    (Nat.toDigits 10 n).foldlM (pushDigit? limit) 0 = some n := by
  induction n using Nat.strongRecOn with
  | ind n ih =>
    -- the last digit is the last one that is read
    rw [Nat.toDigits_eq_if (by decide)]
    split
    next hlt =>
      have pushed : pushDigit? limit 0 (Nat.digitChar n) = some (0 * 10 + n) :=
        pushDigit?_digitChar hlt (by omega)
      simpa using pushed
    next hle =>
      have hmod : n % 10 < 10 := Nat.mod_lt n (by decide)
      have hdiv : n / 10 * 10 + n % 10 = n := by omega
      have pushed := pushDigit?_digitChar hmod (Nat.le_trans (Nat.le_of_eq hdiv) h)
      rw [List.foldlM_append, ih (n / 10) (by omega) (by omega)]
      simpa [hdiv] using pushed

/-- **The digits of a number are read back**, up to the limit. -/
theorem readUpTo?_toDigits {limit n : Nat} (h : n ≤ limit) :
    readUpTo? limit (Nat.toDigits 10 n) = some n := by
  have some_digit : (Nat.toDigits 10 n).isEmpty = false := by
    rw [List.isEmpty_eq_false_iff]
    exact Nat.toDigits_ne_nil
  rw [readUpTo?, some_digit, if_neg Bool.false_ne_true, foldlM_toDigits h]

/-- Zeros in front change nothing. -/
theorem foldlM_zeros (limit zeros : Nat) (digits : List Char) :
    (List.replicate zeros '0' ++ digits).foldlM (pushDigit? limit) 0 =
      digits.foldlM (pushDigit? limit) 0 := by
  have pushed : pushDigit? limit 0 '0' = some 0 :=
    pushDigit?_digitChar (d := 0) (by decide) (Nat.zero_le _)
  induction zeros with
  | zero => rfl
  | succ zeros ih =>
    rw [List.replicate_succ, List.cons_append, List.foldlM_cons, pushed]
    exact ih

/-- Digits have no sign in front of them. -/
theorem readUnsigned?_of_isDigit {digits : List Char} (h : ∀ c ∈ digits, isDigit c = true) :
    readUnsigned? digits = readUpTo? maxUnsigned digits := by
  unfold readUnsigned?
  split
  next => exact absurd (h '+' List.mem_cons_self) (by decide)
  next => rfl

/-- An unsigned number is read back from its digits, zeros in front of them or not. -/
theorem readUnsigned?_zeros {n : Nat} (h : n ≤ maxUnsigned) (zeros : Nat) :
    readUnsigned? (List.replicate zeros '0' ++ Nat.toDigits 10 n) = some n := by
  have digits : ∀ c ∈ List.replicate zeros '0' ++ Nat.toDigits 10 n, isDigit c = true := by
    intro c hc
    rcases List.mem_append.mp hc with hc | hc
    · rw [List.eq_of_mem_replicate hc]
      rfl
    · exact isDigit_of_mem_toDigits hc
  have some_digit : (List.replicate zeros '0' ++ Nat.toDigits 10 n).isEmpty = false := by
    rw [List.isEmpty_eq_false_iff]
    exact List.append_ne_nil_of_right_ne_nil _ Nat.toDigits_ne_nil
  rw [readUnsigned?_of_isDigit digits, readUpTo?, some_digit, if_neg Bool.false_ne_true,
    foldlM_zeros, foldlM_toDigits h]

theorem readUnsigned?_toDigits {n : Nat} (h : n ≤ maxUnsigned) :
    readUnsigned? (Nat.toDigits 10 n) = some n :=
  readUnsigned?_zeros h 0

/-! ### Numbers with a sign -/

/-- A signed 64-bit number. -/
def IsSigned (n : Int) : Prop :=
  -9223372036854775808 ≤ n ∧ n ≤ 9223372036854775807

instance : DecidablePred IsSigned :=
  fun _ => inferInstanceAs (Decidable (_ ∧ _))

/-- What a whole number is written as: a sign if it is negative, and digits. -/
theorem toList_toString (n : Int) :
    (toString n).toList = (if n < 0 then ['-'] else []) ++ Nat.toDigits 10 n.natAbs := by
  cases n with
  | ofNat n =>
    have nonneg : ¬ (Int.ofNat n < 0) := Int.not_lt.mpr (Int.natCast_nonneg n)
    rw [if_neg nonneg]
    exact Nat.toList_repr
  | negSucc n =>
    rw [if_pos (Int.negSucc_lt_zero n)]
    show ("-" ++ Nat.repr (n + 1)).toList = _
    rw [String.toList_append, Nat.toList_repr]
    rfl

theorem pushDigit?_le {limit value n : Nat} {c : Char} (h : pushDigit? limit value c = some n) :
    n ≤ limit := by
  unfold pushDigit? at h
  split at h
  · contradiction
  · split at h
    · contradiction
    · obtain rfl := Option.some.inj h
      omega

theorem foldlM_pushDigit?_le {limit value n : Nat} {digits : List Char} (hvalue : value ≤ limit)
    (h : digits.foldlM (pushDigit? limit) value = some n) : n ≤ limit := by
  induction digits generalizing value with
  | nil =>
    obtain rfl := Option.some.inj h
    exact hvalue
  | cons c digits ih =>
    obtain ⟨next, hnext, h⟩ := Option.bind_eq_some_iff.mp h
    exact ih (pushDigit?_le hnext) h

/-- Nothing past the limit is read. -/
theorem readUpTo?_le {limit n : Nat} {digits : List Char} (h : readUpTo? limit digits = some n) :
    n ≤ limit := by
  unfold readUpTo? at h
  split at h
  · contradiction
  · exact foldlM_pushDigit?_le (Nat.zero_le _) h

theorem readSigned?_minus {digits : List Char} {n : Nat}
    (h : readUpTo? (Nat.pow 2 63) digits = some n) :
    readSigned? ('-' :: digits) = some (-(n : Int)) := by
  simp only [readSigned?, h]
  rfl

theorem readSigned?_of_isDigit {digits : List Char} {n : Nat}
    (hdigits : ∀ c ∈ digits, isDigit c = true)
    (h : readUpTo? (Nat.pow 2 63 - 1) digits = some n) :
    readSigned? digits = some (n : Int) := by
  unfold readSigned?
  split
  next => exact absurd (hdigits '-' List.mem_cons_self) (by decide)
  next => exact absurd (hdigits '+' List.mem_cons_self) (by decide)
  next =>
    rw [h]
    rfl

/-- **A signed number is read back** with its sign. -/
theorem readSigned?_toString {n : Int} (h : IsSigned n) :
    readSigned? (toString n).toList = some n := by
  obtain ⟨low, high⟩ := h
  rw [toList_toString]
  split
  next negative =>
    have fits : n.natAbs ≤ 2 ^ 63 := by omega
    have value : -(n.natAbs : Int) = n := by omega
    exact (readSigned?_minus (readUpTo?_toDigits fits)).trans (congrArg some value)
  next positive =>
    have fits : n.natAbs ≤ 2 ^ 63 - 1 := by omega
    have value : (n.natAbs : Int) = n := by omega
    exact (readSigned?_of_isDigit (fun c => isDigit_of_mem_toDigits)
      (readUpTo?_toDigits fits)).trans (congrArg some value)

/-- **No number is read that is out of range.** -/
theorem isSigned_of_readSigned? {n : Int} {text : List Char} (h : readSigned? text = some n) :
    IsSigned n := by
  unfold readSigned? at h
  split at h
  next =>
    obtain ⟨i, hi, rfl⟩ := Option.map_eq_some_iff.mp h
    obtain ⟨m, hm, ⟨⟩⟩ := Option.bind_eq_some_iff.mp hi
    have small : m ≤ 2 ^ 63 := readUpTo?_le hm
    constructor <;> omega
  all_goals
    obtain ⟨i, hi, rfl⟩ := Option.map_eq_some_iff.mp h
    obtain ⟨m, hm, ⟨⟩⟩ := Option.bind_eq_some_iff.mp hi
    have small : m ≤ 2 ^ 63 - 1 := readUpTo?_le hm
    constructor <;> omega

end LiveCoding
