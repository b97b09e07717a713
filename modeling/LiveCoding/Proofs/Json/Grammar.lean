import LiveCoding.Json.Tree
import Mathlib.Data.List.Forall2

/-!
# The grammar of JSON texts

A JSON text writes a tree.  The grammar says which texts do, and does so without reading
them: spaces may stand around every value, and around the key of a member.

## Main Definitions

* `Json.IsGap`: what may stand between tokens.
* `Json.IsRaw`: what may stand between two quotes.
* `Json.Numeral.Written`: the texts of a number.
* `Json.Tree.Written`, `Json.Tree.Padded`: the texts of a tree, without and with spaces around
  them.

## Design Notes

The digits of an exponent are the one place where different texts write the same tree: from
`Json.Lexer.greatestExponent` on, exponents are not told apart.
-/

namespace LiveCoding

namespace Json

open Lexer

/-- What may stand between tokens. -/
def IsGap (text : List UInt8) : Prop :=
  ∀ b ∈ text, isSpace b = true

instance (text : List UInt8) : Decidable (IsGap text) :=
  decidable_of_iff (text.all isSpace = true) List.all_eq_true

/-- What may stand between two quotes: no quote and no control character as such, and a
backslash only in front of a short escape or of four hexadecimal digits. -/
inductive IsRaw : List UInt8 → Prop where
  | nil : IsRaw []
  | plain {b : UInt8} {rest : List UInt8} (noQuote : b ≠ byte '"') (noEscape : b ≠ byte '\\')
      (noControl : ¬ b < 32) (h : IsRaw rest) : IsRaw (b :: rest)
  | short {b : UInt8} {rest : List UInt8} (hb : isShortEscape b = true) (h : IsRaw rest) :
      IsRaw (byte '\\' :: b :: rest)
  | unit {digits rest : List UInt8} (length : digits.length = 4)
      (hex : ∀ b ∈ digits, (hexDigit? b).isSome) (h : IsRaw rest) :
      IsRaw (byte '\\' :: byte 'u' :: (digits ++ rest))

/-- A byte that stands between two quotes as it is. -/
def isPlain (b : UInt8) : Bool :=
  b != byte '"' && b != byte '\\' && !decide (b < 32)

theorem isRaw_of_plain {text : List UInt8} (h : text.all isPlain = true) : IsRaw text := by
  induction text with
  | nil => exact .nil
  | cons b rest ih =>
    rw [List.all_cons, Bool.and_eq_true] at h
    obtain ⟨⟨noQuote, noEscape⟩, noControl⟩ : (b ≠ byte '"' ∧ b ≠ byte '\\') ∧ ¬ b < 32 := by
      simpa [isPlain] using h.1
    exact .plain noQuote noEscape noControl (ih h.2)

/-! ### Numbers -/

/-- Bytes that are decimal digits, and the digits that they are. -/
def Digits (text : List UInt8) (digits : List Nat) : Prop :=
  List.Forall₂ (fun b d => digit? b = some d) text digits

/-- The number that digits write. -/
def decimal (digits : List Nat) : Nat :=
  digits.foldl (fun value d => value * 10 + d) 0

/-- The part in front of a point: a zero stands alone. -/
inductive WholeText : List UInt8 → List Nat → Prop where
  | zero {b : UInt8} (hb : digit? b = some 0) : WholeText [b] [0]
  | digits {b : UInt8} {d : Nat} {rest : List UInt8} {more : List Nat}
      (hb : digit? b = some (d + 1)) (hrest : Digits rest more) :
      WholeText (b :: rest) ((d + 1) :: more)

/-- The part from a point on. -/
inductive FractionText : List UInt8 → List Nat → Prop where
  | none : FractionText [] []
  | digits {text : List UInt8} {digits : List Nat} (h : Digits text digits) (some : digits ≠ []) :
      FractionText (byte '.' :: text) digits

/-- The sign of an exponent, and whether it is negative. -/
inductive ExponentSign : List UInt8 → Bool → Prop where
  | none : ExponentSign [] false
  | plus : ExponentSign [byte '+'] false
  | minus : ExponentSign [byte '-'] true

/-- The part from the letter of an exponent on. -/
inductive ExponentText : List UInt8 → Option Int → Prop where
  | none : ExponentText [] none
  | digits {mark : UInt8} {sign text : List UInt8} {negative : Bool} {digits : List Nat}
      (hmark : isMark mark = true) (hsign : ExponentSign sign negative) (h : Digits text digits)
      (some : digits ≠ []) :
      ExponentText (mark :: (sign ++ text))
        (let size : Int := (min greatestExponent (decimal digits) : Nat)
         Option.some (if negative then -size else size))

/-- The texts of a number. -/
inductive Numeral.Written : Numeral → List UInt8 → Prop where
  | mk {whole fraction exponent : List UInt8} {numeral : Numeral}
      (hwhole : WholeText whole numeral.whole) (hfraction : FractionText fraction numeral.fraction)
      (hexponent : ExponentText exponent numeral.exponent) :
      Numeral.Written numeral
        ((if numeral.negative then [byte '-'] else []) ++ whole ++ fraction ++ exponent)

/-! ### Trees -/

mutual

/-- The texts of a tree, without spaces around it. -/
inductive Tree.Written : Tree → List UInt8 → Prop where
  | null : Tree.Written .null (asciiBytes "null")
  | bool (value : Bool) :
      Tree.Written (.bool value) (asciiBytes (if value then "true" else "false"))
  | number {numeral : Numeral} {text : List UInt8} (h : numeral.Written text) :
      Tree.Written (.number numeral) text
  | text {raw : List UInt8} (h : IsRaw raw) :
      Tree.Written (.text raw) (byte '"' :: (raw ++ [byte '"']))
  | emptyList {gap : List UInt8} (h : IsGap gap) :
      Tree.Written (.list []) (byte '[' :: (gap ++ [byte ']']))
  | list {items : List Tree} {texts : List (List UInt8)} (some : items ≠ [])
      (h : List.Forall₂ Tree.Padded items texts) :
      Tree.Written (.list items) (byte '[' :: ([byte ','].intercalate texts ++ [byte ']']))
  | emptyRecord {gap : List UInt8} (h : IsGap gap) :
      Tree.Written (.record []) (byte '\x7b' :: (gap ++ [byte '\x7d']))
  | record {members : List (List UInt8 × Tree)} {texts : List (List UInt8)} (some : members ≠ [])
      (h : List.Forall₂ Tree.MemberWritten members texts) :
      Tree.Written (.record members)
        (byte '\x7b' :: ([byte ','].intercalate texts ++ [byte '\x7d']))

/-- The texts of a tree, with spaces around it. -/
inductive Tree.Padded : Tree → List UInt8 → Prop where
  | mk {before text after : List UInt8} {tree : Tree} (hbefore : IsGap before)
      (h : Tree.Written tree text) (hafter : IsGap after) :
      Tree.Padded tree (before ++ (text ++ after))

/-- The texts of a member: its key between quotes, a colon, and its value. -/
inductive Tree.MemberWritten : List UInt8 × Tree → List UInt8 → Prop where
  | mk {before raw after text : List UInt8} {tree : Tree} (hbefore : IsGap before)
      (hraw : IsRaw raw) (hafter : IsGap after) (h : Tree.Padded tree text) :
      Tree.MemberWritten (raw, tree)
        (before ++ (byte '"' :: (raw ++ [byte '"']) ++ (after ++ byte ':' :: text)))

end

theorem Tree.Written.padded {tree : Tree} {text : List UInt8} (h : tree.Written text) :
    tree.Padded text := by
  simpa using @Tree.Padded.mk [] text [] tree nofun h nofun

end Json

end LiveCoding
