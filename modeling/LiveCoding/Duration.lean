/-!
# Durations in messages

A time limit is named in the message of the timeout.  It is written in the
largest unit of which there is at least one, with as many decimal places as it
takes to be exact.
-/

namespace LiveCoding

/-- A length of time: whole seconds and the nanoseconds on top, less than a second. -/
structure Duration where
  seconds : Nat
  nanoseconds : Nat
deriving DecidableEq, Repr

namespace Duration

/-- So many seconds and so many nanoseconds, of which there may be enough for
further seconds. -/
def ofParts (seconds nanoseconds : Nat) : Duration :=
  ⟨seconds + nanoseconds / 1000000000, nanoseconds % 1000000000⟩

/-- So many milliseconds. -/
def ofMilliseconds (n : Nat) : Duration :=
  .ofParts 0 (n * 1000000)

/-- The decimal places of a part of a unit that has `places` of them: as many
digits as needed, after a point, or nothing. -/
def fraction (places part : Nat) : String :=
  let digits := (Nat.toDigits 10 part)
  let padded := List.replicate (places - digits.length) '0' ++ digits
  if part = 0 then ""
  else String.ofList ('.' :: (padded.reverse.dropWhile (· == '0')).reverse)

/-- A whole number of units and a part of the next. -/
def inUnit (whole places part : Nat) (unit : String) : String :=
  toString whole ++ fraction places part ++ unit

/-- The wording of a duration. -/
def display (duration : Duration) : String :=
  let n := duration.nanoseconds
  if duration.seconds > 0 then inUnit duration.seconds 9 n "s"
  else if n ≥ 1000000 then inUnit (n / 1000000) 6 (n % 1000000) "ms"
  else if n ≥ 1000 then inUnit (n / 1000) 3 (n % 1000) "µs"
  else inUnit n 0 0 "ns"

end Duration

end LiveCoding
