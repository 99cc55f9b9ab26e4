/-!
# The Gregorian calendar

Days are counted from 1970-01-01 and dated by the proleptic Gregorian calendar.
Its cycle is an era of 400 years; inside an era, years are counted from March,
so that a leap day is the last day of its year.
-/

namespace Parley
namespace Calendar

/-- A date of the proleptic Gregorian calendar; year 0 is 1 BC. -/
structure Date where
  year : Int
  month : Nat
  day : Nat
  deriving DecidableEq, Repr

/-- Days in 400 years. -/
def eraDays : Nat := 146097

/-- The day of 0000-03-01, counted backwards from 1970-01-01. -/
def eraOrigin : Int := 719468

/-- The year, counted from March, of a day of an era. -/
def yearOfEra (dayOfEra : Nat) : Nat :=
  (dayOfEra - dayOfEra / 1460 + dayOfEra / 36524 - dayOfEra / 146096) / 365

/-- The first day of a year of an era. -/
def dayOfYearStart (year : Nat) : Nat :=
  365 * year + year / 4 - year / 100

/-- The date of a day. -/
def ofDayNumber (days : Int) : Date :=
  let sinceOrigin := days + eraOrigin
  let era := Int.fdiv sinceOrigin eraDays
  let dayOfEra := (Int.fmod sinceOrigin eraDays).toNat
  let year := yearOfEra dayOfEra
  let dayOfYear := dayOfEra - dayOfYearStart year
  let monthFromMarch := (5 * dayOfYear + 2) / 153
  let day := dayOfYear - (153 * monthFromMarch + 2) / 5 + 1
  let month := if monthFromMarch < 10 then monthFromMarch + 3 else monthFromMarch - 9
  { year := year + era * 400 + (if month ≤ 2 then 1 else 0), month, day }

end Calendar
end Parley
