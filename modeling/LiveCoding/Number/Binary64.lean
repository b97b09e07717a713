/-!
# Binary64 numbers

A number in a message that is not a whole number, or too large for one, becomes a
number of the binary64 format.  Such a number is kept as a significand and a power
of two, and arithmetic on it is arithmetic on natural numbers with one rounding at
the end: to the nearest number of the format, and from the middle to the one with
the even significand.

## Main Definitions

* `Binary64`: a finite number of the format.
* `Binary64.nearest?`: the nearest number to a quotient of natural numbers.
* `Binary64.ofDecimal?`: the number that a decimal significand and exponent stand
  for.

## Design Notes

`ofDecimal?` rounds the significand first and then the product with, or the
quotient by, a power of ten that was itself rounded.  The result can be one step
away from the number nearest to the decimal.  What is nearest is not promised by
the format of messages; which number comes out is fixed by this rule.
-/

namespace LiveCoding

/-- The number `±significand · 2 ^ exponent`.  Where it comes from `nearest?`, the
significand has 53 bits, or the exponent is the least one. -/
structure Binary64 where
  negative : Bool
  significand : Nat
  exponent : Int
deriving DecidableEq, Repr

namespace Binary64

/-- The least exponent of the format. -/
def leastExponent : Int := -1074

/-- The greatest exponent of the format. -/
def greatestExponent : Int := 971

/-- Zero, without a sign. -/
def zero : Binary64 := ⟨false, 0, leastExponent⟩

/-- The quotient `numerator / (denominator · 2 ^ exponent)` as two natural
numbers. -/
def scaled (numerator denominator : Nat) (exponent : Int) : Nat × Nat :=
  if 0 ≤ exponent then (numerator, denominator * Nat.pow 2 exponent.toNat)
  else (numerator * Nat.pow 2 (-exponent).toNat, denominator)

/-- The natural number nearest to a quotient; from the middle, the even one. -/
def roundQuotient (numerator denominator : Nat) : Nat :=
  let quotient := numerator / denominator
  let twice := 2 * (numerator % denominator)
  if denominator < twice || (twice == denominator && quotient % 2 == 1) then quotient + 1
  else quotient

/-- The exponent at which a quotient has 53 bits in front of the point, or the
least exponent if that is greater. -/
def exponentFor (numerator denominator : Nat) : Int :=
  let guess : Int := (Nat.log2 numerator : Int) - Nat.log2 denominator - 52
  let (n, d) := scaled numerator denominator guess
  max leastExponent (if n < d * Nat.pow 2 52 then guess - 1 else guess)

/-- The number of the format nearest to a quotient, if it is not out of range. -/
def nearest? (numerator denominator : Nat) : Option Binary64 :=
  if numerator = 0 then some zero
  else
    let exponent := exponentFor numerator denominator
    let (n, d) := scaled numerator denominator exponent
    let significand := roundQuotient n d
    let (significand, exponent) :=
      if significand = Nat.pow 2 53 then (Nat.pow 2 52, exponent + 1) else (significand, exponent)
    if greatestExponent < exponent then none else some ⟨false, significand, exponent⟩

/-- The number without its sign, as a quotient of natural numbers. -/
def quotient (x : Binary64) : Nat × Nat :=
  if 0 ≤ x.exponent then (x.significand * Nat.pow 2 x.exponent.toNat, 1)
  else (x.significand, Nat.pow 2 (-x.exponent).toNat)

/-- The product of two numbers without sign. -/
def mul? (x y : Binary64) : Option Binary64 :=
  let (a, b) := x.quotient
  let (c, d) := y.quotient
  nearest? (a * c) (b * d)

/-- The quotient of two numbers without sign. -/
def div? (x y : Binary64) : Option Binary64 :=
  let (a, b) := x.quotient
  let (c, d) := y.quotient
  nearest? (a * d) (b * c)

/-- The power of ten nearest to `10 ^ n`. -/
def powerOfTen? (n : Nat) : Option Binary64 :=
  nearest? (Nat.pow 10 n) 1

/-- The greatest exponent of a power of ten in the format. -/
def greatestPower : Nat := 308

/-- The number divided by `10 ^ exponent`, in steps of the greatest power of ten.
Each step but the last uses one unit of `steps`. -/
def divideByPower? (x : Binary64) (exponent : Nat) : (steps : Nat) → Option Binary64
  | 0 => powerOfTen? exponent >>= x.div?
  | steps + 1 =>
    if exponent ≤ greatestPower then powerOfTen? exponent >>= x.div?
    else if x.significand = 0 then some x
    else do
      let divided ← powerOfTen? greatestPower >>= x.div?
      divideByPower? divided (exponent - greatestPower) steps

/-- The number that `significand · 10 ^ exponent` stands for, without sign, if it
is not out of range. -/
def ofDecimal? (significand : Nat) (exponent : Int) : Option Binary64 := do
  let x ← nearest? significand 1
  if exponent < 0 then divideByPower? x exponent.natAbs (exponent.natAbs / greatestPower + 1)
  else if x.significand = 0 then some x
  else if greatestPower < exponent.natAbs then none
  else powerOfTen? exponent.natAbs >>= x.mul?

end Binary64

end LiveCoding
