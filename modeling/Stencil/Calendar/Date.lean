/-
# Dates

Dates of the Gregorian calendar, carried back before its introduction, from the
first day of the year 1 to the last day of the year 9999. Days are numbered
from the first of them, so that the day after is the next number and the day of
the week is the number modulo seven.

Key definitions: `Date`, `Date.valid`, `Date.dayNumber`, `Date.ofDayNumber`,
`Date.weekday`, `Date.dayOfYear`, `Date.isoWeek`.
-/
namespace Stencil

/-- A day: year, month and day of the month, each counted from one. -/
structure Date where
  year : Nat
  month : Nat
  day : Nat
  deriving DecidableEq, Repr

namespace Calendar

/-- Every fourth year is a leap year, of the centuries only every fourth. -/
def isLeap (year : Nat) : Bool :=
  year % 4 = 0 && (year % 100 ≠ 0 || year % 400 = 0)

/-- The lengths of the months in order. -/
def monthLengths (leap : Bool) : List Nat :=
  [31, if leap then 29 else 28, 31, 30, 31, 30, 31, 31, 30, 31, 30, 31]

def daysInMonth (year month : Nat) : Nat :=
  (monthLengths (isLeap year)).getD (month - 1) 0

/-- The days of a year before a month. -/
def daysBeforeMonth (year month : Nat) : Nat :=
  ((monthLengths (isLeap year)).take (month - 1)).foldl (· + ·) 0

/-- The days of all years before one. -/
def daysBeforeYear (year : Nat) : Nat :=
  let y := year - 1
  y * 365 + y / 4 - y / 100 + y / 400

/-- The month that holds a day, counted from zero, of a year, and the day of that month; `month`
is the number of the first of the given months. -/
def splitMonth : List Nat → Nat → Nat → Nat × Nat
  | [], month, days => (month, days + 1)
  | length :: lengths, month, days =>
    if days < length then (month, days + 1) else splitMonth lengths (month + 1) (days - length)

end Calendar

namespace Date

open Calendar

/-- A day that the calendar has, from year 1 to year 9999. -/
def valid (d : Date) : Bool :=
  1 ≤ d.year && d.year ≤ 9999 && 1 ≤ d.month && d.month ≤ 12 && 1 ≤ d.day &&
    d.day ≤ daysInMonth d.year d.month

/-- The number of a day; the first day of the year 1 has number 1. -/
def dayNumber (d : Date) : Nat :=
  daysBeforeYear d.year + daysBeforeMonth d.year d.month + d.day

/-- The day with a number: whole cycles of 400 years, then centuries, cycles of four years and
years, where the last century and the last year of a cycle are the long ones. -/
def ofDayNumber (number : Nat) : Date :=
  let n := number - 1
  let cycles := n / 146097
  let n := n % 146097
  let centuries := min (n / 36524) 3
  let n := n - centuries * 36524
  let fours := n / 1461
  let n := n % 1461
  let years := min (n / 365) 3
  let n := n - years * 365
  let year := 400 * cycles + 100 * centuries + 4 * fours + years + 1
  let (month, day) := splitMonth (monthLengths (isLeap year)) 1 n
  ⟨year, month, day⟩

/-- The number of the last day of the year 9999. -/
def lastDayNumber : Nat := 3652059

/-- The day of the week, Monday being 0. -/
def weekday (d : Date) : Nat :=
  (d.dayNumber + 6) % 7

/-- The day of the week, Monday being 1 and Sunday 7. -/
def isoWeekday (d : Date) : Nat :=
  d.weekday + 1

/-- The day of the year, counted from one. -/
def dayOfYear (d : Date) : Nat :=
  daysBeforeMonth d.year d.month + d.day

/-- The number of the Monday of the first week of a year: the week that holds the first Thursday.
It may lie in the year before, hence an integer. -/
def firstMonday (year : Nat) : Int :=
  let first := daysBeforeYear year + 1
  let weekday := (first + 6) % 7
  let monday : Int := first - weekday
  if 3 < weekday then monday + 7 else monday

/-- The number of the week; the last days of a year may belong to the first week of the next. -/
def isoWeek (d : Date) : Nat :=
  let today : Int := d.dayNumber
  let week := (today - firstMonday d.year) / 7
  if week < 0 then ((today - firstMonday (d.year - 1)) / 7).toNat + 1
  else if 52 ≤ week ∧ firstMonday (d.year + 1) ≤ today then 1
  else week.toNat + 1

/-- The day of a week of a year, unless there is no such week or day. -/
def ofIsoWeek? (year week weekday : Nat) : Option Date :=
  let longYear := firstMonday (year + 1) - firstMonday year = 371
  if year = 0 ∨ week = 0 ∨ 53 < week ∨ (week = 53 ∧ ¬ longYear) ∨ weekday = 0 ∨ 7 < weekday then none
  else
    let number := firstMonday year + (week - 1) * 7 + (weekday - 1)
    if number < 1 ∨ (lastDayNumber : Int) < number then none else some (ofDayNumber number.toNat)

end Date

end Stencil
