import KeyedStream.Instant
import KeyedStream.Text.Digits

/-!
# The text of an instant

Date and time of day in the Gregorian calendar, extended to all years, in universal time.
-/

namespace KeyedStream.Instant

structure Date where
  year : Int
  month : Nat
  day : Nat
deriving DecidableEq, Repr

/-- The date of the day that is `n` days after 1970-01-01. The count goes by eras of 400 years,
which all have the same number of days, and by years that begin in March, so that a leap day ends
its year. -/
def dateOfDay (n : Int) : Date :=
  let z := n + 719468
  let era := z.fdiv 146097
  let dayOfEra := (z.fmod 146097).toNat
  let yearOfEra :=
    (dayOfEra - dayOfEra / 1460 + dayOfEra / 36524 - dayOfEra / 146096) / 365
  let dayOfYear := dayOfEra - (365 * yearOfEra + yearOfEra / 4 - yearOfEra / 100)
  let m := (5 * dayOfYear + 2) / 153
  let day := dayOfYear - (153 * m + 2) / 5 + 1
  let month := if m < 10 then m + 3 else m - 9
  { year := era * 400 + yearOfEra + (if month ≤ 2 then 1 else 0), month, day }

/-- A number with at least `width` digits. -/
def digits (width n : Nat) : String := String.ofList (Digits.padded width n)

/-- Four digits, and a sign and more digits where the year needs them. -/
def yearText (y : Int) : String :=
  if y < 0 then "-" ++ digits 4 y.natAbs
  else if 9999 < y then "+" ++ digits 4 y.natAbs
  else digits 4 y.natAbs

/-- The part of a second, in three, six or nine digits, or nothing. -/
def fractionText (nanos : Nat) : String :=
  if nanos = 0 then ""
  else if nanos % 1000000 = 0 then "." ++ digits 3 (nanos / 1000000)
  else if nanos % 1000 = 0 then "." ++ digits 6 (nanos / 1000)
  else "." ++ digits 9 nanos

/-- Date and time of day. A leap second is numbered on from the second before it: at the end of a
minute it is second 60. -/
def text (t : Instant) : String :=
  let date := dateOfDay (t.seconds.fdiv 86400)
  let ofDay := (t.seconds.fmod 86400).toNat
  let leap := if t.isLeap then 1 else 0
  yearText date.year ++ "-" ++ digits 2 date.month ++ "-" ++ digits 2 date.day ++ "T" ++
    digits 2 (ofDay / 3600) ++ ":" ++ digits 2 (ofDay / 60 % 60) ++ ":" ++
    digits 2 (ofDay % 60 + leap) ++ fractionText (t.nanos % nanosPerSecond) ++ "Z"

end KeyedStream.Instant
