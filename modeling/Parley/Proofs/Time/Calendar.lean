import Mathlib.Tactic.IntervalCases
import Parley.Time.Calendar

/-!
# Days and dates

The days of the proleptic Gregorian calendar, counted as the calendar has them: year after
year, month after month, day after day.  What is computed as the date of a day is a date of
the calendar, and it falls on that day.
-/

namespace Parley
namespace Calendar

/-! ## The calendar -/

/-- Every fourth year is a leap year, but of those that end a century only every fourth. -/
def isLeap (year : Int) : Bool := year % 4 = 0 && (year % 100 ≠ 0 || year % 400 = 0)

/-- Days in a year. -/
def yearLength (year : Int) : Nat := if isLeap year then 366 else 365

/-- Days in a month. -/
def monthLength (year : Int) : Nat → Nat
  | 2 => if isLeap year then 29 else 28
  | 4 | 6 | 9 | 11 => 30
  | _ => 31

/-- A date of the calendar. -/
structure Date.IsValid (date : Date) : Prop where
  month_pos : 1 ≤ date.month
  month_le : date.month ≤ 12
  day_pos : 1 ≤ date.day
  day_le : date.day ≤ monthLength date.year date.month

instance (date : Date) : Decidable date.IsValid :=
  decidable_of_iff (1 ≤ date.month ∧ date.month ≤ 12 ∧ 1 ≤ date.day ∧
      date.day ≤ monthLength date.year date.month)
    ⟨fun ⟨first, twelfth, early, late⟩ => ⟨first, twelfth, early, late⟩,
      fun ⟨first, twelfth, early, late⟩ => ⟨first, twelfth, early, late⟩⟩

/-- Days in several years, one after the other. -/
def daysInYears (first : Int) : Nat → Nat
  | 0 => 0
  | count + 1 => daysInYears first count + yearLength (first + count)

/-- Days in the first months of a year. -/
def daysInMonths (year : Int) : Nat → Nat
  | 0 => 0
  | count + 1 => daysInMonths year count + monthLength year (count + 1)

/-- The day on which a year begins, where 1970 begins on day 0. -/
def yearStart (year : Int) : Int :=
  daysInYears 1970 (year - 1970).toNat - daysInYears year (1970 - year).toNat

/-- The day on which a date falls. -/
def dayNumber (date : Date) : Int :=
  yearStart date.year + (daysInMonths date.year (date.month - 1) + (date.day - 1) : Nat)

/-! ## The start of a year in closed form -/

/-- The leap years before a year, from year 1 on. -/
def leapsBefore (year : Int) : Int := (year - 1) / 4 - (year - 1) / 100 + (year - 1) / 400

theorem leapsBefore_succ (year : Int) :
    yearLength year + leapsBefore year = 365 + leapsBefore (year + 1) := by
  unfold yearLength isLeap leapsBefore
  simp only [Bool.and_eq_true, Bool.or_eq_true, decide_eq_true_eq]
  split <;> omega

theorem daysInYears_eq (first : Int) (count : Nat) :
    (daysInYears first count : Int) =
      365 * count + leapsBefore (first + count) - leapsBefore first := by
  induction count with
  | zero => simp [daysInYears]
  | succ count induction =>
      have next := leapsBefore_succ (first + count)
      rw [daysInYears, Nat.cast_add, induction, Nat.cast_succ, ← Int.add_assoc]
      omega

theorem yearStart_eq (year : Int) :
    yearStart year = 365 * (year - 1970) + leapsBefore year - 477 := by
  have epoch : leapsBefore 1970 = 477 := by decide
  rw [yearStart, daysInYears_eq, daysInYears_eq, epoch]
  rcases Int.le_total 1970 year with late | early
  · have before : (1970 - year).toNat = 0 := by omega
    have since : ((year - 1970).toNat : Int) = year - 1970 := by omega
    have there : 1970 + (year - 1970) = year := by omega
    rw [before, since, there, Nat.cast_zero, Int.add_zero]
    omega
  · have since : (year - 1970).toNat = 0 := by omega
    have before : ((1970 - year).toNat : Int) = 1970 - year := by omega
    have there : year + (1970 - year) = 1970 := by omega
    rw [since, before, there, Nat.cast_zero, Int.add_zero, epoch]
    omega

theorem yearStart_succ (year : Int) : yearStart (year + 1) = yearStart year + yearLength year := by
  have next := leapsBefore_succ year
  rw [yearStart_eq, yearStart_eq]
  omega

theorem yearLength_le (year : Int) : yearLength year ≤ 366 := by
  unfold yearLength
  split <;> omega

theorem monthLength_le (year : Int) (month : Nat) : monthLength year month ≤ 31 := by
  unfold monthLength
  split
  case h_1 => split <;> decide
  all_goals decide

/-! ## Months from March on -/

/-- From March to the end of the year the lengths of the months come in a regular pattern. -/
theorem daysInMonths_fromMarch (year : Int) {month : Nat} (before : month < 10) :
    daysInMonths year (month + 2) + 306 = yearLength year + (153 * month + 2) / 5 ∧
      monthLength year (month + 3) + (153 * month + 2) / 5 = (153 * (month + 1) + 2) / 5 := by
  interval_cases month <;> refine ⟨?_, rfl⟩
  all_goals
    simp only [daysInMonths, monthLength, yearLength]
    split <;> rfl

/-- January and February continue the pattern, up to the end of February. -/
theorem daysInMonths_beforeMarch (year : Int) {month : Nat} (after : 10 ≤ month)
    (within : month ≤ 11) :
    daysInMonths year (month - 10) + 306 = (153 * month + 2) / 5 ∧
      monthLength year (month - 9) + (153 * month + 2) / 5 =
        min ((153 * (month + 1) + 2) / 5) (yearLength year) := by
  interval_cases month <;> refine ⟨rfl, ?_⟩
  all_goals
    simp only [monthLength, yearLength]
    split <;> rfl

/-- The date of a day of a year that is counted from March. -/
def ofMarch (year : Int) (dayOfYear : Nat) : Date :=
  let monthFromMarch := (5 * dayOfYear + 2) / 153
  let month := if monthFromMarch < 10 then monthFromMarch + 3 else monthFromMarch - 9
  { year := year + (if month ≤ 2 then 1 else 0)
    month
    day := dayOfYear - (153 * monthFromMarch + 2) / 5 + 1 }

/-- A year that is counted from March has its dates in order. -/
theorem ofMarch_spec {year : Int} {dayOfYear : Nat} (inYear : dayOfYear < yearLength (year + 1)) :
    (ofMarch year dayOfYear).IsValid ∧
      dayNumber (ofMarch year dayOfYear) = yearStart (year + 1) - 306 + dayOfYear := by
  have atMost := yearLength_le (year + 1)
  generalize found : (5 * dayOfYear + 2) / 153 = month
  have within : month ≤ 11 := by omega
  -- January and February are the last months of such a year, and belong to the next one.
  by_cases before : month < 10
  · have same : ofMarch year dayOfYear =
        { year, month := month + 3, day := dayOfYear - (153 * month + 2) / 5 + 1 } := by
      simp [ofMarch, found, before]
    obtain ⟨start, length⟩ := daysInMonths_fromMarch year before
    rw [same]
    refine ⟨?_, ?_⟩
    · constructor <;> dsimp only <;> omega
    · have next := yearStart_succ year
      change yearStart year + (daysInMonths year (month + 2) +
        (dayOfYear - (153 * month + 2) / 5) : Nat) = _
      omega
  · have early : month - 9 ≤ 2 := by omega
    have same : ofMarch year dayOfYear =
        { year := year + 1, month := month - 9
          day := dayOfYear - (153 * month + 2) / 5 + 1 } := by
      simp [ofMarch, found, before, early]
    obtain ⟨start, length⟩ := daysInMonths_beforeMarch (year + 1) (by omega) within
    rw [same]
    refine ⟨?_, ?_⟩
    · constructor <;> dsimp only <;> omega
    · change yearStart (year + 1) + (daysInMonths (year + 1) (month - 10) +
        (dayOfYear - (153 * month + 2) / 5) : Nat) = _
      omega

/-! ## Years of an era -/

/-- A day of an era in which years are counted from March: eras are made of centuries, these
of spans of four years, and these of years.  Since leap days come last, each of these is the
same as the others of its kind but for a day that only the last one has. -/
structure Cycles (dayOfEra century four year day : Nat) : Prop where
  century_le : century ≤ 3
  four_le : four ≤ 24
  year_le : year ≤ 3
  day_le : day ≤ 365
  leap : day = 365 → year = 3 ∧ (four = 24 → century = 3)
  sum : dayOfEra = 36524 * century + 1461 * four + 365 * year + day

/-- Of spans that are equally long but for one more day at the end of the last one, each day
belongs to one. -/
theorem exists_span {length last days : Nat} (positive : 0 < length)
    (within : days ≤ length * (last + 1)) :
    ∃ span day, span ≤ last ∧ days = length * span + day ∧ day ≤ length ∧
      (day = length → span = last) := by
  rcases Nat.lt_or_eq_of_le within with before | final
  · have short := Nat.mod_lt days positive
    exact ⟨days / length, days % length, Nat.le_of_lt_succ (Nat.div_lt_of_lt_mul before),
      (Nat.div_add_mod days length).symm, short.le, fun equal => absurd equal short.ne⟩
  · exact ⟨last, length, le_rfl, final.trans (Nat.mul_succ length last), le_rfl, fun _ => rfl⟩

theorem exists_cycles {dayOfEra : Nat} (inEra : dayOfEra < eraDays) :
    ∃ century four year day, Cycles dayOfEra century four year day := by
  unfold eraDays at inEra
  obtain ⟨century, inCentury, century_le, era, inCentury_le, lastCentury⟩ :=
    exists_span (by decide : 0 < 36524) (by omega : dayOfEra ≤ 36524 * (3 + 1))
  obtain ⟨year, day, year_le, four, day_le, lastYear⟩ :=
    exists_span (by decide : 0 < 365) (by omega : inCentury % 1461 ≤ 365 * (3 + 1))
  exact ⟨century, inCentury / 1461, year, day, century_le, by omega, year_le, day_le, by omega,
    by omega⟩

namespace Cycles

variable {dayOfEra century four year day : Nat}

/-- The year is found when the days that only the last cycles have are left out. -/
theorem yearOfEra_eq (cycles : Cycles dayOfEra century four year day) :
    yearOfEra dayOfEra = 100 * century + 4 * four + year := by
  obtain ⟨century_le, four_le, year_le, day_le, leap, sum⟩ := cycles
  -- On the last day of an era both sides count a fifth century.
  have centuries : dayOfEra / 36524 = century + dayOfEra / 146096 := by
    by_cases last : day = 365 ∧ four = 24
    · obtain ⟨rfl, rfl⟩ := last
      obtain ⟨rfl, inLast⟩ := leap rfl
      obtain rfl := inLast rfl
      rw [sum]
    · have inEra : dayOfEra / 146096 = 0 := Nat.div_eq_of_lt (by omega)
      rw [inEra]
      exact Nat.div_eq_of_lt_le (by omega) (by omega)
  -- Spans of 1460 days leave the leap days out, so late in a span there may be one more.
  have fours : dayOfEra / 1460 = 25 * century + four ∧ day ≤ 364 ∨
      dayOfEra / 1460 = 25 * century + four + 1 ∧ 1 ≤ day := by
    by_cases before : 24 * century + four + 365 * year + day < 1460
    · exact .inl ⟨Nat.div_eq_of_lt_le (by omega) (by omega), by omega⟩
    · exact .inr ⟨Nat.div_eq_of_lt_le (by omega) (by omega), by omega⟩
  unfold yearOfEra
  rw [centuries]
  rcases fours with ⟨count, ordinary⟩ | ⟨count, late⟩
  all_goals
    rw [count]
    exact Nat.div_eq_of_lt_le (by omega) (by omega)

theorem dayOfYearStart_add (cycles : Cycles dayOfEra century four year day) :
    dayOfYearStart (100 * century + 4 * four + year) + day = dayOfEra := by
  obtain ⟨century_le, four_le, year_le, day_le, leap, sum⟩ := cycles
  unfold dayOfYearStart
  omega

/-- Only a year that ends with a leap day has a last day more than the others. -/
theorem day_lt_yearLength (cycles : Cycles dayOfEra century four year day) (era : Int) :
    day < yearLength ((100 * century + 4 * four + year : Nat) + era * 400 + 1) := by
  obtain ⟨century_le, four_le, year_le, day_le, leap, sum⟩ := cycles
  unfold yearLength isLeap
  simp only [Bool.and_eq_true, Bool.or_eq_true, decide_eq_true_eq]
  split <;> omega

end Cycles

/-- Eras are alike. -/
theorem yearStart_of_era {year : Nat} (inEra : year ≤ 399) (era : Int) :
    yearStart (year + era * 400 + 1) - 306 = era * eraDays + dayOfYearStart year - eraOrigin := by
  rw [yearStart_eq]
  unfold leapsBefore dayOfYearStart eraDays eraOrigin
  omega

/-! ## The date of a day -/

/-- What is computed for a day is a date of the calendar, and it falls on that day. -/
theorem ofDayNumber_spec (days : Int) :
    (ofDayNumber days).IsValid ∧ dayNumber (ofDayNumber days) = days := by
  generalize eraOf : Int.fdiv (days + eraOrigin) eraDays = era
  generalize dayOf : (Int.fmod (days + eraOrigin) eraDays).toNat = dayOfEra
  have computed : ofDayNumber days =
      ofMarch (yearOfEra dayOfEra + era * 400) (dayOfEra - dayOfYearStart (yearOfEra dayOfEra)) := by
    rw [← eraOf, ← dayOf]
    rfl
  rw [Int.fdiv_eq_ediv_of_nonneg _ (by decide)] at eraOf
  rw [Int.fmod_eq_emod_of_nonneg _ (by decide)] at dayOf
  have inEra : dayOfEra < eraDays := by
    unfold eraDays at dayOf ⊢
    omega
  have whole : days = era * eraDays + dayOfEra - eraOrigin := by
    unfold eraDays at *
    omega
  obtain ⟨century, four, year, day, cycles⟩ := exists_cycles inEra
  have start := cycles.dayOfYearStart_add
  have rest : dayOfEra - dayOfYearStart (100 * century + 4 * four + year) = day := by omega
  obtain ⟨valid, falls⟩ := ofMarch_spec (cycles.day_lt_yearLength era)
  have inYears : 100 * century + 4 * four + year ≤ 399 := by
    have centuries := cycles.century_le
    have fours := cycles.four_le
    have years := cycles.year_le
    omega
  rw [computed, cycles.yearOfEra_eq, rest]
  refine ⟨valid, falls.trans ?_⟩
  rw [yearStart_of_era inYears, whole]
  omega

end Calendar
end Parley
