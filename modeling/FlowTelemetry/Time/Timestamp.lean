import FlowTelemetry.Text.Decimal
import FlowTelemetry.Time.Date

/-!
# Timestamps and durations

A `Timestamp` is an instant together with the offset of the local time it is
to be shown in. The instant alone decides what comes before what and how
long something took; the offset only moves the date and the time of day.

A `Duration` is the difference of two instants and may be negative, for
frames need not be captured in the order of their timestamps. It is split
into whole seconds and a rest, and both have the sign of the whole. All of it
is counted in nanoseconds.
-/

namespace FlowTelemetry

/-- The number of nanoseconds in a second. -/
def nanosPerSecond : Int := 1000000000

/-- The number of seconds in a day. -/
def secondsPerDay : Int := 86400

/-- A span of time, forwards or backwards. -/
structure Duration where
  nanoseconds : Int
  deriving DecidableEq, Repr

namespace Duration

/-- The seconds that are complete, the fraction being cut off. -/
def wholeSeconds (d : Duration) : Int := d.nanoseconds.tdiv nanosPerSecond

/-- The nanoseconds beside the complete seconds. -/
def subseconds (d : Duration) : Int := d.nanoseconds.tmod nanosPerSecond

/-- Whether time went forwards. -/
def isPositive (d : Duration) : Bool := 0 < d.nanoseconds

/-- The seconds as a floating point number: the complete seconds and the rest
are each converted and then added. -/
def seconds (d : Duration) : Float :=
  Float.ofInt d.wholeSeconds + Float.ofInt d.subseconds / Float.ofInt nanosPerSecond

end Duration

/-- An instant, and the local time it is shown in. -/
structure Timestamp where
  /-- Nanoseconds since the beginning of 1970, UTC. -/
  nanoseconds : Int
  /-- How many seconds local time is ahead of UTC. -/
  offset : Int
  deriving DecidableEq, Repr

/-- The date and the time of day at some place. -/
structure LocalTime where
  date : Date
  hour : Nat
  minute : Nat
  second : Nat
  nanosecond : Nat
  deriving DecidableEq, Repr

namespace Timestamp

/-- The instant some nanoseconds after the given second. -/
def ofParts (seconds nanoseconds offset : Int) : Timestamp :=
  ⟨seconds * nanosPerSecond + nanoseconds, offset⟩

/-- The last second that is not after the instant. -/
def second (t : Timestamp) : Int := t.nanoseconds / nanosPerSecond

/-- The nanoseconds since that second. -/
def nanosecond (t : Timestamp) : Nat := (t.nanoseconds % nanosPerSecond).toNat

/-- The time from one instant to another. -/
def since (t earlier : Timestamp) : Duration := ⟨t.nanoseconds - earlier.nanoseconds⟩

/-- The date and the time of day where the timestamp is shown. -/
def toLocal (t : Timestamp) : LocalTime :=
  let seconds := t.second + t.offset
  let ofDay := (seconds % secondsPerDay).toNat
  { date := Date.ofDay (seconds / secondsPerDay)
    hour := ofDay / 3600
    minute := ofDay / 60 % 60
    second := ofDay % 60
    nanosecond := t.nanosecond }

/-- The hours, minutes and seconds of the offset, each with its sign. -/
def offsetParts (t : Timestamp) : Int × Int × Int :=
  (t.offset.tdiv 3600, (t.offset.tdiv 60).tmod 60, t.offset.tmod 60)

/-- The digits of a year: at least four, behind a sign if it is negative. -/
def yearChars (year : Int) : List Char :=
  if year < 0 then '-' :: Decimal.padded 4 year.natAbs else Decimal.padded 4 year.natAbs

/-- The digits of a fraction of a second, without zeros at the end but with at
least one digit. -/
def fractionChars (nanosecond : Nat) : List Char :=
  match ((Decimal.padded 9 nanosecond).reverse.dropWhile (· == '0')).reverse with
  | [] => ['0']
  | ds => ds

/-- The characters of an offset: a sign, hours, minutes and seconds. -/
def offsetChars (t : Timestamp) : List Char :=
  let (hours, minutes, seconds) := t.offsetParts
  (if t.offset < 0 then '-' else '+') :: Decimal.padded 2 hours.natAbs ++
    ':' :: Decimal.padded 2 minutes.natAbs ++ ':' :: Decimal.padded 2 seconds.natAbs

/-- The local date, the local time of day and the offset, with a blank between
them. Only the hour is written without a leading zero. -/
def text (t : Timestamp) : String :=
  let shown := t.toLocal
  let (month, day) := shown.date.month
  String.ofList <|
    yearChars shown.date.year ++ '-' :: Decimal.padded 2 month ++ '-' :: Decimal.padded 2 day ++
    ' ' :: Decimal.digits shown.hour ++ ':' :: Decimal.padded 2 shown.minute ++
    ':' :: Decimal.padded 2 shown.second ++ '.' :: fractionChars shown.nanosecond ++
    ' ' :: t.offsetChars

end Timestamp

end FlowTelemetry
