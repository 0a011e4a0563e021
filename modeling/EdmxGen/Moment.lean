import EdmxGen.Text.Basic

/-!
# Moments

A moment is a number of seconds since 1970 and the offset of the local time from the universal one.
It is written with the date and time of day that its clock shows, and with its offset to the minute.
-/

namespace EdmxGen

open Text

/-- Seconds since the beginning of 1970, and the seconds by which the local clock is ahead. -/
structure Moment where
  seconds : Int
  offset : Int
  deriving DecidableEq, Repr

namespace Moment

structure Date where
  year : Int
  month : Nat
  day : Nat
  deriving DecidableEq, Repr

/-- The date of the day that is `days` after the first of January 1970. The calendar repeats every
400 years; within them a year begins in March, so that the leap day is its last. -/
def dateOf (days : Int) : Date :=
  let shifted := days + 719468
  let era := shifted.fdiv 146097
  let dayOfEra := (shifted.fmod 146097).toNat
  let yearOfEra := (dayOfEra - dayOfEra / 1460 + dayOfEra / 36524 - dayOfEra / 146096) / 365
  let dayOfYear := dayOfEra - (365 * yearOfEra + yearOfEra / 4 - yearOfEra / 100)
  let marchMonth := (5 * dayOfYear + 2) / 153
  let day := dayOfYear - (153 * marchMonth + 2) / 5 + 1
  let month := if marchMonth < 10 then marchMonth + 3 else marchMonth - 9
  let year := (yearOfEra : Int) + era * 400
  ⟨if month ≤ 2 then year + 1 else year, month, day⟩

/-- The days of the week from the one on which 1970 began. -/
def weekdays : List String := ["Thu", "Fri", "Sat", "Sun", "Mon", "Tue", "Wed"]

def months : List String :=
  ["Jan", "Feb", "Mar", "Apr", "May", "Jun", "Jul", "Aug", "Sep", "Oct", "Nov", "Dec"]

/-- A year with four digits or more; a sign stands before years that do not have just four. -/
def writeYear (year : Int) : List Char :=
  if year < 0 then '-' :: decimalPadded 4 year.natAbs
  else if year > 9999 then '+' :: decimalPadded 4 year.natAbs
  else decimalPadded 4 year.natAbs

/-- An offset in hours and minutes; half a minute is rounded away from zero. -/
def writeOffset (offset : Int) : List Char :=
  let minutes := (offset.natAbs + 30) / 60
  (if offset < 0 then '-' else '+') :: (decimalPadded 2 (minutes / 60) ++
    decimalPadded 2 (minutes % 60))

def writeTime (second : Nat) : List Char :=
  decimalPadded 2 (second / 3600) ++ ':' :: decimalPadded 2 (second / 60 % 60) ++ ':' ::
    decimalPadded 2 (second % 60)

/-- The moment on its local clock. -/
def write (m : Moment) : List Char :=
  let localSeconds := m.seconds + m.offset
  let days := localSeconds.fdiv 86400
  let date := dateOf days
  (weekdays.getD (days.fmod 7).toNat "").toList ++ ' ' ::
    (months.getD (date.month - 1) "").toList ++ ' ' :: decimalPadded 2 date.day ++ ' ' ::
    writeYear date.year ++ ' ' :: writeTime (localSeconds.fmod 86400).toNat ++
    [' ', 'G', 'M', 'T'] ++ writeOffset m.offset

/-- The moment in universal time, as it stands in a log. -/
def stamp (m : Moment) : List Char :=
  let date := dateOf (m.seconds.fdiv 86400)
  writeYear date.year ++ '-' :: decimalPadded 2 date.month ++ '-' :: decimalPadded 2 date.day ++
    'T' :: writeTime (m.seconds.fmod 86400).toNat ++ ['Z']

end Moment

end EdmxGen
