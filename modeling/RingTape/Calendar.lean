import RingTape.Text.Number

/-!
# Calendar dates

A log line carries the date and time of day at which it was written. Dates are those of the
Gregorian calendar extended in both directions. Years are counted from March, so that the leap
day is the last day of a year, and four hundred years form a cycle of 146097 days; within a cycle
the year, the month and the day are found by division.
-/

namespace RingTape

/-- A calendar date. -/
structure Date where
  /-- The year, zero and negative years included. -/
  year : Int
  /-- The month, from 1. -/
  month : Nat
  /-- The day of the month, from 1. -/
  day : Nat
deriving DecidableEq, Repr

namespace Date

/-- Days in a cycle of four hundred years. -/
def cycleDays : Int := 146097

/-- The first of January 1970, counted in days from the first of March of the year 0. -/
def epochDay : UInt64 := 719468

/-- The year of a day within a cycle: each of the leading years has 365 days once the leap days
before it are taken off. -/
def yearOfCycle (day : Nat) : Nat :=
  (day - day / 1460 + day / 36524 - day / 146096) / 365

/-- The date `n` days after the first of March of the year 0. -/
def ofMarchDay (n : Int) : Date :=
  let cycle := n / cycleDays
  let dayOfCycle := (n % cycleDays).toNat
  let yearOfCycle := yearOfCycle dayOfCycle
  let dayOfYear := dayOfCycle - (365 * yearOfCycle + yearOfCycle / 4 - yearOfCycle / 100)
  let monthFromMarch := (5 * dayOfYear + 2) / 153
  let month := if monthFromMarch < 10 then monthFromMarch + 3 else monthFromMarch - 9
  { year := yearOfCycle + cycle * 400 + (if month ≤ 2 then 1 else 0)
    month := month
    day := dayOfYear - (153 * monthFromMarch + 2) / 5 + 1 }

/-- The date of a day number counted from the first of January 1970. The number is a 64-bit word
read as signed, so numbers from `2 ^ 63` up lie before 1970. -/
def ofDayNumber (word : UInt64) : Date :=
  ofMarchDay (word + epochDay).toInt64.toInt

/-- The year as a log line holds it: in 32 bits. -/
def yearField (date : Date) : Nat :=
  (date.year % 0x100000000).toNat

end Date

/-- The date and time of day, to the millisecond, of a moment given in seconds and milliseconds
since the start of 1970. -/
def timestamp (seconds : UInt64) (millis : Nat) : String :=
  let date := Date.ofDayNumber (seconds / 86400)
  let clock := seconds.toNat
  Text.zeroPadded 4 date.yearField ++ "-" ++ Text.zeroPadded 2 date.month ++ "-" ++
    Text.zeroPadded 2 date.day ++ " " ++ Text.zeroPadded 2 (clock / 3600 % 24) ++ ":" ++
    Text.zeroPadded 2 (clock / 60 % 60) ++ ":" ++ Text.zeroPadded 2 (clock % 60) ++ "." ++
    Text.zeroPadded 3 millis

end RingTape
