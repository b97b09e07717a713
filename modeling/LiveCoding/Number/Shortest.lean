import LiveCoding.Number.Binary64

/-!
# Shortest decimals

A binary64 number is written with the fewest digits that read back as the same
number.  Of all decimals of that length the nearest to the number is taken.

## Main Definitions

* `Binary64.shortestDigits`: the digits and the place of the point.
* `Binary64.display`: the decimal as it stands in a message.

## Design Notes

The decimals that read back lie between the middles to the two neighbours of the
number; the middles themselves count if the significand is even, because rounding
from the middle goes there.  In units of a quarter of the last place all three
are whole numbers.
-/

namespace LiveCoding

namespace Binary64

/-- The decimals that read back as a number, as quarters of its last place. -/
structure Interval where
  /-- One quarter of the last place, as a quotient. -/
  unit : Nat × Nat
  least : Nat
  middle : Nat
  greatest : Nat
  /-- Whether the ends belong to it. -/
  closed : Bool

/-- The interval around a number.  Below a power of two the neighbour is only half
as far away. -/
def interval (x : Binary64) : Interval :=
  let m := x.significand
  let quarter := x.exponent - 2
  { unit := if 0 ≤ quarter then (Nat.pow 2 quarter.toNat, 1) else (1, Nat.pow 2 (-quarter).toNat)
    least := if m = Nat.pow 2 52 && leastExponent < x.exponent then 4 * m - 1 else 4 * m - 2
    middle := 4 * m
    greatest := 4 * m + 2
    closed := m % 2 == 0 }

namespace Interval

/-- Two natural numbers that compare as `decimal · 10 ^ power` and
`quarters` quarters do. -/
def sides (i : Interval) (decimal : Nat) (power : Int) (quarters : Nat) : Nat × Nat :=
  if 0 ≤ power then (decimal * Nat.pow 10 power.toNat * i.unit.2, quarters * i.unit.1)
  else (decimal * i.unit.2, quarters * i.unit.1 * Nat.pow 10 (-power).toNat)

/-- Whether `decimal · 10 ^ power` reads back as the number. -/
def holds (i : Interval) (decimal : Nat) (power : Int) : Bool :=
  let (d, l) := i.sides decimal power i.least
  let (e, g) := i.sides decimal power i.greatest
  (l < d || (i.closed && l == d)) && (e < g || (i.closed && e == g))

/-- The greatest decimal with the given power that is not above the number. -/
def floor (i : Interval) (power : Int) : Nat :=
  let n := i.middle * i.unit.1
  if 0 ≤ power then n / (i.unit.2 * Nat.pow 10 power.toNat)
  else n * Nat.pow 10 (-power).toNat / i.unit.2

/-- Whether the upper of two neighbouring decimals is nearer to the number. -/
def upperIsNearer (i : Interval) (lower : Nat) (power : Int) : Bool :=
  let (twice, number) := i.sides (2 * lower + 1) power (2 * i.middle)
  twice < number

/-- The decimal with the given power that is to be written, if one reads back. -/
def candidate? (i : Interval) (power : Int) : Option Nat :=
  let lower := i.floor power
  let below := 0 < lower && i.holds lower power
  let above := i.holds (lower + 1) power
  if below && above then some (if i.upperIsNearer lower power then lower + 1 else lower)
  else if below then some lower
  else if above then some (lower + 1)
  else none

/-- The first decimal that reads back when the power goes down from `power`. -/
def search (i : Interval) (power : Int) : (steps : Nat) → Nat × Int
  | 0 => (i.floor power, power)
  | steps + 1 =>
    match i.candidate? power with
    | some decimal => (decimal, power)
    | none => search i (power - 1) steps

end Interval

/-- Enough decimal places to tell every positive number of the format from
zero. -/
def places : Nat := 340

/-- The exponent of the first digit of a positive number. -/
def leadingPower (x : Binary64) : Int :=
  let (n, d) := x.quotient
  ((Nat.toDigits 10 (n * Nat.pow 10 places / d)).length : Int) - 1 - places

/-- The fewest digits that read back as a positive number, and the power of ten of
the last of them. -/
def shortestDigits (x : Binary64) : List Char × Int :=
  let (decimal, power) := x.interval.search x.leadingPower 17
  let digits := Nat.toDigits 10 decimal
  let kept := (digits.reverse.dropWhile (· == '0')).reverse
  (kept, power + (digits.length - kept.length : Nat))

/-- A number as it stands in a message.  The point is written where that takes at
most 16 digits in front of it or five zeros behind it; otherwise the first digit
stands before the point and a power of ten follows. -/
def display (x : Binary64) : String :=
  let sign := if x.negative then "-" else ""
  if x.significand = 0 then sign ++ "0.0"
  else
    let (digits, power) := x.shortestDigits
    let point : Int := digits.length + power
    let text :=
      if 0 ≤ power && point ≤ 16 then digits ++ List.replicate power.toNat '0' ++ ['.', '0']
      else if 0 < point && point ≤ 16 then
        digits.take point.toNat ++ '.' :: digits.drop point.toNat
      else if -5 < point && point ≤ 0 then
        '0' :: '.' :: List.replicate (-point).toNat '0' ++ digits
      else
        let behind := digits.drop 1
        digits.take 1 ++ (if behind.isEmpty then [] else '.' :: behind) ++
          'e' :: (toString (point - 1)).toList
    sign ++ String.ofList text

end Binary64

end LiveCoding
