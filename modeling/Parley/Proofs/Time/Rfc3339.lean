import Parley.Proofs.Text
import Parley.Proofs.Text.Number
import Parley.Proofs.Time.Calendar
import Parley.Time.Stamp

/-!
# Reading RFC 3339

A date and time in RFC 3339, where years outside 0 to 9999 carry a sign, and the moment that
it denotes.  What is written for a date and a time of day in Japan is read as just these.
-/

namespace Parley
namespace Rfc3339

/-! ## The reader -/

/-- A mark in front. -/
def mark? (mark : Char) : List Char → Option (List Char)
  | c :: rest => if c = mark then some rest else none
  | [] => none

/-- All the digits in front, when there are neither too few nor too many. -/
def digits? (least most : Nat) (text : List Char) : Option (List Char × List Char) :=
  let digits := text.takeWhile Char.isDigit
  if least ≤ digits.length ∧ digits.length ≤ most then
    some (digits, text.dropWhile Char.isDigit)
  else none

/-- The number that the digits in front make. -/
def number? (least most : Nat) (text : List Char) : Option (Nat × List Char) :=
  (digits? least most text).map fun (digits, rest) => (Nat.ofDigitChars 10 digits 0, rest)

/-- A year of four digits, or one with a sign and at least four. -/
def year? : List Char → Option (Int × List Char)
  | '-' :: text => (number? 4 text.length text).map fun (year, rest) => (-(year : Int), rest)
  | '+' :: text => (number? 4 text.length text).map fun (year, rest) => ((year : Int), rest)
  | text => (number? 4 4 text).map fun (year, rest) => ((year : Int), rest)

def date? (text : List Char) : Option (Calendar.Date × List Char) := do
  let (year, text) ← year? text
  let text ← mark? '-' text
  let (month, text) ← number? 2 2 text
  let text ← mark? '-' text
  let (day, text) ← number? 2 2 text
  return ({ year, month, day }, text)

/-- Hours and minutes. -/
def minutes? (text : List Char) : Option (Nat × Nat × List Char) := do
  let (hour, text) ← number? 2 2 text
  let text ← mark? ':' text
  let (minute, text) ← number? 2 2 text
  return (hour, minute, text)

/-- The nanoseconds behind a point; none are meant where there is no point. -/
def fraction? : List Char → Option (Nat × List Char)
  | '.' :: text => (digits? 1 9 text).map fun (digits, rest) =>
      (Nat.ofDigitChars 10 digits 0 * 10 ^ (9 - digits.length), rest)
  | text => some (0, text)

/-- The seconds that a place is ahead of UTC. -/
def offset? : List Char → Option (Int × List Char)
  | 'Z' :: text => some (0, text)
  | '+' :: text => (minutes? text).map fun (hour, minute, rest) =>
      ((hour * 3600 + minute * 60 : Nat), rest)
  | '-' :: text => (minutes? text).map fun (hour, minute, rest) =>
      (-((hour * 3600 + minute * 60 : Nat) : Int), rest)
  | _ => none

/-- A date and a time of day at a place. -/
structure Reading where
  moment : Stamp.Local
  /-- The seconds that the place is ahead of UTC. -/
  offset : Int
  deriving DecidableEq, Repr

end Rfc3339

/-- A date of the calendar and a time of day. -/
structure Stamp.Local.IsValid (moment : Stamp.Local) : Prop where
  date : moment.date.IsValid
  hour_lt : moment.hour < 24
  minute_lt : moment.minute < 60
  second_lt : moment.second < 60
  nanosecond_lt : moment.nanosecond < 1000000000

instance (moment : Stamp.Local) : Decidable moment.IsValid :=
  decidable_of_iff (moment.date.IsValid ∧ moment.hour < 24 ∧ moment.minute < 60 ∧
      moment.second < 60 ∧ moment.nanosecond < 1000000000)
    ⟨fun ⟨date, hour, minute, second, nanosecond⟩ => ⟨date, hour, minute, second, nanosecond⟩,
      fun ⟨date, hour, minute, second, nanosecond⟩ => ⟨date, hour, minute, second, nanosecond⟩⟩

namespace Rfc3339

/-- The nanoseconds from 1970-01-01T00:00:00Z to the moment that is meant. -/
def Reading.nanoseconds (reading : Reading) : Int :=
  let moment := reading.moment
  (Calendar.dayNumber moment.date * 86400 +
      (moment.hour * 3600 + moment.minute * 60 + moment.second : Nat) - reading.offset) *
    1000000000 + moment.nanosecond

/-- A date and time; nothing may stand behind it, and the date and the time must exist. -/
def read? (text : String) : Option Reading := do
  let (date, text) ← date? text.toList
  let text ← mark? 'T' text
  let (hour, minute, text) ← minutes? text
  let text ← mark? ':' text
  let (second, text) ← number? 2 2 text
  let (nanosecond, text) ← fraction? text
  let (offset, text) ← offset? text
  let moment : Stamp.Local := { date, hour, minute, second, nanosecond }
  if text = [] ∧ moment.IsValid then return { moment, offset } else none

/-! ## What is written is read back -/

/-- Text that does not begin with a digit. -/
def StartsApart (text : List Char) : Prop := ∀ c ∈ text.head?, c.isDigit = false

@[simp]
theorem startsApart_cons {c : Char} {rest : List Char} :
    StartsApart (c :: rest) ↔ c.isDigit = false := by
  simp [StartsApart]

@[simp]
theorem mark?_cons_self (mark : Char) (rest : List Char) : mark? mark (mark :: rest) = some rest :=
  if_pos rfl

theorem digits?_append {least most : Nat} {digits rest : List Char}
    (all : digits.all Char.isDigit = true) (apart : StartsApart rest)
    (enough : least ≤ digits.length) (few : digits.length ≤ most) :
    digits? least most (digits ++ rest) = some (digits, rest) := by
  have each := List.all_eq_true.1 all
  have stop : rest.takeWhile Char.isDigit = [] ∧ rest.dropWhile Char.isDigit = rest := by
    cases rest with
    | nil => exact ⟨rfl, rfl⟩
    | cons c behind => simp [startsApart_cons.1 apart]
  have taken : (digits ++ rest).takeWhile Char.isDigit = digits := by
    rw [List.takeWhile_append_of_pos each, stop.1, List.append_nil]
  have dropped : (digits ++ rest).dropWhile Char.isDigit = rest := by
    rw [List.dropWhile_append_of_pos each, stop.2]
  rw [digits?, taken, dropped]
  exact if_pos ⟨enough, few⟩

/-- A number that is written with enough digits, but not with too many, is read back. -/
theorem number?_append {least most width n : Nat} {rest : List Char} (apart : StartsApart rest)
    (enough : least ≤ (Number.padded width n).toList.length)
    (few : (Number.padded width n).toList.length ≤ most) :
    number? least most ((Number.padded width n).toList ++ rest) = some (n, rest) := by
  rw [number?, digits?_append (Number.all_isDigit_padded width n) apart enough few,
    Option.map_some]
  dsimp only
  rw [Number.ofDigitChars_padded]

theorem number?_padded {width n : Nat} {rest : List Char} (positive : 0 < width)
    (small : n < 10 ^ width) (apart : StartsApart rest) :
    number? width width ((Number.padded width n).toList ++ rest) = some (n, rest) := by
  have length := Number.length_padded positive small
  exact number?_append apart length.ge length.le

/-- No sign stands before a number. -/
theorem year?_padded {n : Nat} (small : n < 10 ^ 4) {rest : List Char} (apart : StartsApart rest) :
    year? ((Number.padded 4 n).toList ++ rest) = some ((n : Int), rest) := by
  have read := number?_padded (by decide) small apart
  have digits := List.all_eq_true.1 (Number.all_isDigit_padded 4 n)
  have length := Number.length_padded (by decide) small
  cases written : (Number.padded 4 n).toList with
  | nil => simp [written] at length
  | cons c behind =>
      rw [written] at read digits
      have digit := digits c List.mem_cons_self
      rw [List.cons_append] at read ⊢
      unfold year?
      split
      · rename_i sign
        obtain rfl := (List.cons.inj sign).1
        exact absurd digit (by decide)
      · rename_i sign
        obtain rfl := (List.cons.inj sign).1
        exact absurd digit (by decide)
      · rw [read, Option.map_some]

theorem year?_append (year : Int) {rest : List Char} (apart : StartsApart rest) :
    year? ((Stamp.yearText year).toList ++ rest) = some (year, rest) := by
  have signed : number? 4 ((Number.padded 4 year.natAbs).toList ++ rest).length
      ((Number.padded 4 year.natAbs).toList ++ rest) = some (year.natAbs, rest) :=
    number?_append apart (Number.le_length_padded 4 year.natAbs)
      (by rw [List.length_append]; exact Nat.le_add_right _ _)
  unfold Stamp.yearText
  split
  case isTrue negative =>
    have text : ("-" ++ Number.padded 4 year.natAbs).toList ++ rest =
        '-' :: ((Number.padded 4 year.natAbs).toList ++ rest) := by simp
    have same : -(year.natAbs : Int) = year := by omega
    rw [text, year?, signed, Option.map_some]
    dsimp only
    rw [same]
  case isFalse nonnegative =>
    have same : (year.natAbs : Int) = year := by omega
    split
    case isTrue large =>
      have text : ("+" ++ Number.padded 4 year.natAbs).toList ++ rest =
          '+' :: ((Number.padded 4 year.natAbs).toList ++ rest) := by simp
      rw [text, year?, signed, Option.map_some]
      dsimp only
      rw [same]
    case isFalse small => rw [year?_padded (by omega) apart, same]

theorem date?_append {date : Calendar.Date} (valid : date.IsValid) {rest : List Char}
    (apart : StartsApart rest) :
    date? ((Stamp.yearText date.year).toList ++ '-' :: ((Number.padded 2 date.month).toList ++
      '-' :: ((Number.padded 2 date.day).toList ++ rest))) = some (date, rest) := by
  have month := valid.month_le
  have day := valid.day_le.trans (Calendar.monthLength_le date.year date.month)
  unfold date?
  rw [year?_append date.year (startsApart_cons.2 rfl)]
  simp only [bind, Option.bind_some, mark?_cons_self]
  rw [number?_padded (by decide) (by omega) (startsApart_cons.2 rfl)]
  simp only [Option.bind_some, mark?_cons_self]
  rw [number?_padded (by decide) (by omega) apart]
  rfl

theorem minutes?_append {hour minute : Nat} (hourSmall : hour < 100) (minuteSmall : minute < 100)
    {rest : List Char} (apart : StartsApart rest) :
    minutes? ((Number.padded 2 hour).toList ++ ':' :: ((Number.padded 2 minute).toList ++ rest)) =
      some (hour, minute, rest) := by
  unfold minutes?
  rw [number?_padded (by decide) hourSmall (startsApart_cons.2 rfl)]
  simp only [bind, Option.bind_some, mark?_cons_self]
  rw [number?_padded (by decide) minuteSmall apart]
  rfl

/-- Digits behind a point count in proportion to how many there are. -/
theorem fraction?_padded {width n : Nat} (positive : 0 < width) (atMost : width ≤ 9)
    (small : n < 10 ^ width) {rest : List Char} (apart : StartsApart rest) :
    fraction? (("." ++ Number.padded width n).toList ++ rest) =
      some (n * 10 ^ (9 - width), rest) := by
  have length := Number.length_padded positive small
  have text : ("." ++ Number.padded width n).toList ++ rest =
      '.' :: ((Number.padded width n).toList ++ rest) := by simp
  have digits : digits? 1 9 ((Number.padded width n).toList ++ rest) =
      some ((Number.padded width n).toList, rest) :=
    digits?_append (Number.all_isDigit_padded width n) apart (by omega) (by omega)
  rw [text, fraction?, digits, Option.map_some]
  dsimp only
  rw [Number.ofDigitChars_padded, length]

/-- However many digits a fraction of a second is given, none that counts is left out. -/
theorem fraction?_append {nanosecond : Nat} (small : nanosecond < 1000000000) (rest : List Char) :
    fraction? ((Stamp.fractionText nanosecond).toList ++ '+' :: rest) =
      some (nanosecond, '+' :: rest) := by
  have apart : StartsApart ('+' :: rest) := startsApart_cons.2 rfl
  unfold Stamp.fractionText
  split
  case isTrue whole => rw [whole]; rfl
  case isFalse =>
    split
    case isTrue thousandths =>
      have same : nanosecond / 1000000 * 10 ^ (9 - 3) = nanosecond := by omega
      rw [fraction?_padded (by decide) (by decide) (by omega) apart, same]
    case isFalse =>
      split
      case isTrue millionths =>
        have same : nanosecond / 1000 * 10 ^ (9 - 6) = nanosecond := by omega
        rw [fraction?_padded (by decide) (by decide) (by omega) apart, same]
      case isFalse =>
        have same : nanosecond * 10 ^ (9 - 9) = nanosecond := by omega
        rw [fraction?_padded (by decide) (by decide) small apart, same]

theorem startsApart_fractionText (nanosecond : Nat) (rest : List Char) :
    StartsApart ((Stamp.fractionText nanosecond).toList ++ '+' :: rest) := by
  unfold Stamp.fractionText
  split_ifs <;> simp

/-- Japan is nine hours ahead. -/
theorem offset?_zone : offset? ('+' :: "09:00".toList) = some (Stamp.zoneSeconds, []) := by
  decide

/-- What is written for Japan, part by part. -/
theorem toList_rfc3339 (moment : Stamp.Local) :
    moment.rfc3339.toList = (Stamp.yearText moment.date.year).toList ++
      '-' :: ((Number.padded 2 moment.date.month).toList ++
      '-' :: ((Number.padded 2 moment.date.day).toList ++
      'T' :: ((Number.padded 2 moment.hour).toList ++
      ':' :: ((Number.padded 2 moment.minute).toList ++
      ':' :: ((Number.padded 2 moment.second).toList ++
      ((Stamp.fractionText moment.nanosecond).toList ++ '+' :: "09:00".toList)))))) := by
  simp [Stamp.Local.rfc3339, Stamp.Local.clockText]

/-- The date and time that are written for Japan are read back, as of Japan. -/
theorem read?_rfc3339 {moment : Stamp.Local} (valid : moment.IsValid) :
    read? moment.rfc3339 = some { moment, offset := Stamp.zoneSeconds } := by
  have hour := valid.hour_lt
  have minute := valid.minute_lt
  have second := valid.second_lt
  unfold read?
  rw [toList_rfc3339, date?_append valid.date (startsApart_cons.2 rfl)]
  simp only [bind, Option.bind_some, mark?_cons_self]
  rw [minutes?_append (by omega) (by omega) (startsApart_cons.2 rfl)]
  simp only [Option.bind_some, mark?_cons_self]
  rw [number?_padded (by decide) (by omega) (startsApart_fractionText _ _)]
  simp only [Option.bind_some]
  rw [fraction?_append valid.nanosecond_lt]
  simp only [Option.bind_some, offset?_zone, true_and]
  exact if_pos valid

/-! ## The time of day in what is written -/

/-- The hours, minutes and seconds: eight characters behind the `T`. -/
def clockPart (text : String) : String :=
  String.ofList (((Text.cut? 'T' text.toList).map fun halves => halves.2.take 8).getD [])

theorem not_mem_padded (width n : Nat) : 'T' ∉ (Number.padded width n).toList := by
  intro member
  have digit := List.all_eq_true.1 (Number.all_isDigit_padded width n) 'T' member
  exact absurd digit (by decide)

theorem not_mem_yearText (year : Int) : 'T' ∉ (Stamp.yearText year).toList := by
  have digits := not_mem_padded 4 year.natAbs
  unfold Stamp.yearText
  split_ifs <;> simp [digits]

/-- The time of day is written with as many characters each time. -/
theorem length_clockText {moment : Stamp.Local} (valid : moment.IsValid) :
    moment.clockText.toList.length = 8 := by
  have hour := valid.hour_lt
  have minute := valid.minute_lt
  have second := valid.second_lt
  have length {n : Nat} (small : n < 100) : (Number.padded 2 n).toList.length = 2 :=
    Number.length_padded (by decide) small
  simp [Stamp.Local.clockText, length (by omega : moment.hour < 100),
    length (by omega : moment.minute < 100), length (by omega : moment.second < 100)]

theorem clockPart_rfc3339 {moment : Stamp.Local} (valid : moment.IsValid) :
    clockPart moment.rfc3339 = moment.clockText := by
  have parts : moment.rfc3339.toList =
      ((Stamp.yearText moment.date.year).toList ++
        '-' :: ((Number.padded 2 moment.date.month).toList ++
        '-' :: (Number.padded 2 moment.date.day).toList)) ++
      'T' :: (moment.clockText.toList ++
        (Stamp.fractionText moment.nanosecond ++ "+09:00").toList) := by
    simp [Stamp.Local.rfc3339]
  have dateOnly : 'T' ∉ (Stamp.yearText moment.date.year).toList ++
      '-' :: ((Number.padded 2 moment.date.month).toList ++
      '-' :: (Number.padded 2 moment.date.day).toList) := by
    simp [not_mem_yearText, not_mem_padded]
  rw [clockPart, parts, Text.cut?_append_cons dateOnly, Option.map_some, Option.getD_some,
    ← length_clockText valid, List.take_left, String.ofList_toList]

end Rfc3339
end Parley
