import Parley.Text.Number

/-!
# Spans of time

A span is a whole number of nanoseconds.  It is written in the largest unit
that leaves a whole part, with only as many decimals as it needs.
-/

namespace Parley

/-- Nanoseconds since the start of a run. -/
abbrev Moment := Nat

/-- A length of time. -/
structure Span where
  nanoseconds : Nat
  deriving DecidableEq, Repr, Inhabited

namespace Span

/-- Nanoseconds in a microsecond. -/
def microsecond : Nat := 1000

/-- Nanoseconds in a millisecond. -/
def millisecond : Nat := 1000 * microsecond

/-- Nanoseconds in a second. -/
def second : Nat := 1000 * millisecond

/-- A span of whole milliseconds. -/
def ofMilliseconds (n : Nat) : Span := ⟨n * millisecond⟩

/-- A span of whole seconds. -/
def ofSeconds (n : Nat) : Span := ⟨n * second⟩

/-- Whether the span is empty. -/
def isZero (span : Span) : Bool := span.nanoseconds = 0

/-- The text of a span. -/
def text (span : Span) : String :=
  let n := span.nanoseconds
  if second ≤ n then
    toString (n / second) ++ Number.fraction 9 (n % second) ++ "s"
  else if millisecond ≤ n then
    toString (n / millisecond) ++ Number.fraction 6 (n % millisecond) ++ "ms"
  else if microsecond ≤ n then
    toString (n / microsecond) ++ Number.fraction 3 (n % microsecond) ++ "µs"
  else toString n ++ "ns"

end Span

namespace Moment

/-- The first whole millisecond that is not before a moment. -/
def roundUp (moment : Moment) : Moment :=
  (moment + (Span.millisecond - 1)) / Span.millisecond * Span.millisecond

/-- The whole milliseconds before a moment. -/
def milliseconds (moment : Moment) : Nat := moment / Span.millisecond

end Moment
end Parley
