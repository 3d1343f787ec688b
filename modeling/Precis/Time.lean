/-!
Contract: lengths of time and points in time.

This module owns two scales, both counted in nanoseconds. A `Duration` is a
length of time; it is never negative. An `Instant` is a point of the calendar
between two fixed limits, and an operation that would leave the limits says
what it does there. The text of a duration is the one that messages show.
-/

namespace Precis

structure Duration where
  nanoseconds : Nat
deriving DecidableEq, Repr

namespace Duration

def ofSeconds (seconds : Nat) : Duration :=
  ⟨seconds * 1000000000⟩

def ofMilliseconds (milliseconds : Nat) : Duration :=
  ⟨milliseconds * 1000000⟩

def milliseconds (duration : Duration) : Nat :=
  duration.nanoseconds / 1000000

def seconds (duration : Duration) : Nat :=
  duration.nanoseconds / 1000000000

/-- The digits after the point of `remainder / unit`, where `unit` is a power
of ten, without zeros at the end. -/
def fractionDigits (remainder unit : Nat) : List Char :=
  let places := (Nat.toDigits 10 unit).length - 1
  let digits := Nat.toDigits 10 remainder
  let padded := List.replicate (places - digits.length) '0' ++ digits
  (padded.reverse.dropWhile (· == '0')).reverse

/-- A count in the given unit, with a point and decimals where it is no whole number. -/
def decimalText (nanoseconds unit : Nat) (name : String) : String :=
  let whole := toString (nanoseconds / unit)
  let fraction := fractionDigits (nanoseconds % unit) unit
  if fraction.isEmpty then whole ++ name
  else whole ++ "." ++ String.ofList fraction ++ name

/-- The text of a length of time, in the largest of the units second,
millisecond, microsecond and nanosecond of which it holds at least one. -/
def text (duration : Duration) : String :=
  let nanoseconds := duration.nanoseconds
  if 1000000000 ≤ nanoseconds then decimalText nanoseconds 1000000000 "s"
  else if 1000000 ≤ nanoseconds then decimalText nanoseconds 1000000 "ms"
  else if 1000 ≤ nanoseconds then decimalText nanoseconds 1000 "µs"
  else toString nanoseconds ++ "ns"

end Duration

namespace Instant

/-- The first point of the calendar, in nanoseconds since the start of 1970. -/
def earliestNanoseconds : Int := -8334601228800 * 1000000000

def latestNanoseconds : Int := 8210266876799 * 1000000000 + 999999999

end Instant

/-- A point of the calendar, counted from the start of 1970. -/
structure Instant where
  nanoseconds : Int
  earliest_le : Instant.earliestNanoseconds ≤ nanoseconds
  le_latest : nanoseconds ≤ Instant.latestNanoseconds
deriving DecidableEq, Repr

namespace Instant

def earliest : Instant := ⟨earliestNanoseconds, by decide, by decide⟩

def latest : Instant := ⟨latestNanoseconds, by decide, by decide⟩

def ofNanoseconds? (nanoseconds : Int) : Option Instant :=
  if lower : earliestNanoseconds ≤ nanoseconds then
    if upper : nanoseconds ≤ latestNanoseconds then some ⟨nanoseconds, lower, upper⟩
    else none
  else none

/-- The point that lies a length of time before another, but no earlier than
the first point of the calendar. -/
def before (instant : Instant) (duration : Duration) : Instant :=
  if lower : earliestNanoseconds ≤ instant.nanoseconds - duration.nanoseconds then
    ⟨instant.nanoseconds - duration.nanoseconds, lower,
      Int.le_trans (Int.sub_le_self _ (Int.natCast_nonneg _)) instant.le_latest⟩
  else earliest

theorem nanoseconds_before (instant : Instant) (duration : Duration) :
    (instant.before duration).nanoseconds =
      max earliestNanoseconds (instant.nanoseconds - duration.nanoseconds) := by
  unfold before
  split
  · exact (Int.max_eq_right (by assumption)).symm
  · change earliestNanoseconds = _
    omega

end Instant

end Precis
