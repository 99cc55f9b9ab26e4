import Parley.Text.Number
import Parley.Time.Calendar

/-!
# Time stamps

A time stamp counts milliseconds from 1970-01-01T00:00:00Z and is shown in
Japan Standard Time: in RFC 3339 for documents, as a clock for terminals.
For documents it is first taken apart into seconds and nanoseconds.
-/

namespace Parley

/-- Milliseconds since 1970-01-01T00:00:00Z. -/
abbrev Stamp := Int

namespace Stamp

/-- Japan Standard Time is nine hours, in seconds, ahead of UTC. -/
def zoneSeconds : Int := 9 * 3600

/-- The same in milliseconds. -/
def zoneOffset : Int := zoneSeconds * 1000

/-- Milliseconds in a day. -/
def dayLength : Int := 24 * 3600 * 1000

/-- The first stamp that has a date. -/
def first : Stamp := -8334601228800000

/-- The last stamp that has a date. -/
def last : Stamp := 8210266876799999

/-- Whether a stamp has a date. -/
def isDated (stamp : Stamp) : Bool := first ≤ stamp && stamp ≤ last

/-- A date and a time of day. -/
structure Local where
  date : Calendar.Date
  hour : Nat
  minute : Nat
  second : Nat
  nanosecond : Nat
  deriving DecidableEq, Repr

/-- Date and time of day in Japan. -/
def toLocal (stamp : Stamp) : Local :=
  let shifted := stamp + zoneOffset
  let inDay := (Int.fmod shifted dayLength).toNat
  { date := Calendar.ofDayNumber (Int.fdiv shifted dayLength)
    hour := inDay / 3600000
    minute := inDay / 60000 % 60
    second := inDay / 1000 % 60
    nanosecond := inDay % 1000 * 1000000 }

/-- Date and time of day in Japan; none for a stamp without a date. -/
def toLocal? (stamp : Stamp) : Option Local :=
  if isDated stamp then some (toLocal stamp) else none

/-- Whole seconds since 1970-01-01T00:00:00Z, and the nanoseconds behind them. -/
structure Instant where
  seconds : Int64
  nanoseconds : UInt32
  deriving DecidableEq, Repr

namespace Instant

/-- A stamp in seconds, rounded down, and nanoseconds.  All is computed in words of 64
bits, of which 32 are kept for the nanoseconds. -/
def ofStamp (stamp : Stamp) : Instant where
  seconds := Int64.ofInt (stamp / 1000)
  nanoseconds := (Int64.ofInt (stamp % 1000) * 1000000).toUInt64.toUInt32

/-- The first second that has a date. -/
def firstSecond : Int := -8334601228800

/-- The last second that has a date. -/
def lastSecond : Int := 8210266876799

/-- Nanoseconds in a second. -/
def secondLength : Nat := 1000000000

/-- Whether an instant has a date; there are no leap seconds. -/
def isDated (instant : Instant) : Bool :=
  firstSecond ≤ instant.seconds.toInt && instant.seconds.toInt ≤ lastSecond &&
    instant.nanoseconds.toNat < secondLength

/-- Seconds in a day. -/
def daySeconds : Int := 24 * 3600

/-- Date and time of day in Japan. -/
def toLocal (instant : Instant) : Local :=
  let shifted := instant.seconds.toInt + zoneSeconds
  let inDay := (Int.fmod shifted daySeconds).toNat
  { date := Calendar.ofDayNumber (Int.fdiv shifted daySeconds)
    hour := inDay / 3600
    minute := inDay / 60 % 60
    second := inDay % 60
    nanosecond := instant.nanoseconds.toNat }

/-- Date and time of day in Japan; none for an instant without a date. -/
def toLocal? (instant : Instant) : Option Local :=
  if instant.isDated then some instant.toLocal else none

end Instant

/-- Four digits at least; years outside 0 to 9999 carry a sign. -/
def yearText (year : Int) : String :=
  if year < 0 then "-" ++ Number.padded 4 year.natAbs
  else if 9999 < year then "+" ++ Number.padded 4 year.natAbs
  else Number.padded 4 year.natAbs

/-- The part of a second behind the point, in thousandths, millionths or billionths,
whichever are the first to be exact; nothing for a whole second. -/
def fractionText (nanosecond : Nat) : String :=
  if nanosecond = 0 then ""
  else if nanosecond % 1000000 = 0 then "." ++ Number.padded 3 (nanosecond / 1000000)
  else if nanosecond % 1000 = 0 then "." ++ Number.padded 6 (nanosecond / 1000)
  else "." ++ Number.padded 9 nanosecond

/-- The time of day as hours, minutes and seconds. -/
def Local.clockText (moment : Local) : String :=
  Number.padded 2 moment.hour ++ ":" ++ Number.padded 2 moment.minute ++ ":" ++
    Number.padded 2 moment.second

/-- Date and time in RFC 3339. -/
def Local.rfc3339 (moment : Local) : String :=
  yearText moment.date.year ++ "-" ++ Number.padded 2 moment.date.month ++ "-" ++
    Number.padded 2 moment.date.day ++ "T" ++ moment.clockText ++
    fractionText moment.nanosecond ++ "+09:00"

/-- A stamp in RFC 3339; one without a date is shown as stamp 0. -/
def rfc3339 (stamp : Stamp) : String :=
  match (Instant.ofStamp stamp).toLocal? with
  | some moment => moment.rfc3339
  | none => ((toLocal? 0).map Local.rfc3339).getD ""

/-- The time of day of a stamp; dashes for one without a date. -/
def clock (stamp : Stamp) : String :=
  ((toLocal? stamp).map Local.clockText).getD "--:--:--"

end Stamp
end Parley
