/-!
# Calendar dates

Days are counted, and a date is a way to write down which day it is: a year
and the number of the day within the year, or a month and a day. The
calendar is the Gregorian one, applied to all of time, so there is a year 0
and there are years before it.

The count of days up to a year has a closed form (`yearStart`): 365 for each
year and one for each leap year, which are those divisible by 4 but not by
100 unless by 400. Going back, the year of a day is estimated from the mean
length of a year and set right by comparing with `yearStart`, since the
estimate is off by one year at most.
-/

namespace FlowTelemetry.Date

/-- Whether a year has 366 days. -/
def isLeap (year : Int) : Bool :=
  (year % 4 == 0 && year % 100 != 0) || year % 400 == 0

/-- The number of days from the first day of the year 0 to that of the given
year, negative for the years before. -/
def yearStart (year : Int) : Int :=
  365 * year + (year + 3) / 4 - (year + 99) / 100 + (year + 399) / 400

/-- The year of a day that is counted from the first day of the year 0.
Every 400 years have 146097 days. -/
def yearOfDay (day : Int) : Int :=
  let estimate := day * 400 / 146097
  if day < yearStart estimate then estimate - 1
  else if yearStart (estimate + 1) ≤ day then estimate + 1
  else estimate

/-- The lengths of the months of a year. -/
def monthLengths (year : Int) : List Nat :=
  [31, if isLeap year then 29 else 28, 31, 30, 31, 30, 31, 31, 30, 31, 30, 31]

/-- The month and the day, counted from 1, of the day with the given index. -/
def monthAndDay : List Nat → Nat → Nat × Nat
  | [], index => (1, index + 1)
  | length :: rest, index =>
    if index < length then (1, index + 1)
    else
      let (month, day) := monthAndDay rest (index - length)
      (month + 1, day)

end Date

/-- A day of the calendar. -/
structure Date where
  year : Int
  /-- How many days of the year lie before it. -/
  dayIndex : Nat
  deriving DecidableEq, Repr

namespace Date

/-- The first day of 1970, counted from the first day of the year 0. -/
def epoch : Int := 719528

/-- The date of a day that is counted from the first day of 1970. -/
def ofDay (day : Int) : Date :=
  let fromZero := day + epoch
  let year := yearOfDay fromZero
  ⟨year, (fromZero - yearStart year).toNat⟩

/-- The month and the day, counted from 1. -/
def month (date : Date) : Nat × Nat := monthAndDay (monthLengths date.year) date.dayIndex

end Date

end FlowTelemetry
