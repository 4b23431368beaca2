/-
# Moments

A moment is a date, a time of day to the microsecond, and perhaps the offset of
its clock from universal time. The seconds of a moment count from the start of
the year 1970, universal time; a moment without an offset is taken to be in
universal time.

Key definitions: `DateTime`, `DateTime.ofEpoch?`, `DateTime.ofTimestamp?`,
`DateTime.epochSeconds?`, `DateTime.isoText`, `Date.isoText`.
-/
import Stencil.Calendar.Date
import Stencil.Number.Binary64

namespace Stencil

structure DateTime where
  date : Date
  hour : Nat
  minute : Nat
  second : Nat
  microsecond : Nat
  /-- Microseconds that the clock is ahead of universal time, if known. -/
  offset : Option Int
  deriving DecidableEq, Repr

namespace DateTime

open Number

/-- A time that a clock shows on a day that the calendar has. -/
def valid (t : DateTime) : Bool :=
  t.date.valid && t.hour < 24 && t.minute < 60 && t.second < 60 && t.microsecond < 1000000

/-- The start of a day. -/
def ofDate (d : Date) : DateTime :=
  ⟨d, 0, 0, 0, 0, none⟩

def secondOfDay (t : DateTime) : Nat :=
  t.hour * 3600 + t.minute * 60 + t.second

/-- The number of the first day of 1970. -/
def epochDay : Int := 719163

/-- Seconds since the start of 1970 on the clock of the moment, without its fraction. -/
def clockSeconds (t : DateTime) : Int :=
  (t.date.dayNumber - epochDay) * 86400 + t.secondOfDay

/-- The moment some seconds after the start of 1970 in universal time, within the years that
there are. -/
def ofEpoch? (seconds : Int) (microsecond : Nat) : Option DateTime :=
  let total := seconds + epochDay * 86400
  let day := total / 86400
  if day < 1 ∨ (Date.lastDayNumber : Int) < day then none
  else
    let s := (total % 86400).toNat
    some ⟨Date.ofDayNumber day.toNat, s / 3600, s / 60 % 60, s % 60, microsecond, some 0⟩

/-- The nearest integer to a number, the even one from halfway. -/
def roundToInt (x : Binary64) : Int :=
  let (n, d) := x.ratio
  let m : Int := roundHalfEven n d
  if x.isNegative then -m else m

/-- The whole seconds of a number, and the rest as the nearest number of microseconds. -/
def splitSeconds (whole : Int) (x : Binary64) : Int × Nat :=
  let rest := x.scaled.natAbs % twoTo 1074
  let micros := roundToInt (Binary64.ofRatio x.isNegative (rest * 1000000) (twoTo 1074))
  if 1000000 ≤ micros then (whole + 1, (micros - 1000000).toNat)
  else if micros < 0 then (whole - 1, (micros + 1000000).toNat)
  else (whole, micros.toNat)

/-- The moment that a number of seconds stands for. -/
def ofTimestamp? (x : Binary64) : Option DateTime :=
  match x.truncate? with
  | some whole =>
    let (seconds, micros) := splitSeconds whole x
    ofEpoch? seconds micros
  | none => none

/-- Seconds since the start of 1970, cut off after the point. The count passes through a
number of 53 bits, which can carry the last microsecond of a second into the next. The first
day of all cannot be counted without an offset, because the day before it is consulted. -/
def epochSeconds? (t : DateTime) : Option Int :=
  match t.offset with
  | some offset =>
    let micros := t.clockSeconds * 1000000 + t.microsecond - offset
    (Binary64.ofRatio (micros < 0) micros.natAbs 1000000).truncate?
  | none =>
    if t.date.dayNumber ≤ 1 then none
    else
      let fraction := Binary64.ofRatio false t.microsecond 1000000
      ((Binary64.ofInt t.clockSeconds).add fraction).truncate?

/-- A fraction of a second, if there is one. -/
def fractionText (microsecond : Nat) : List Char :=
  if microsecond = 0 then [] else '.' :: padded 6 microsecond

/-- An offset as hours and minutes, with seconds and their fraction if there are any. -/
def offsetText (sep : List Char) (offset : Int) : List Char :=
  let micros := offset.natAbs
  let seconds := micros / 1000000
  let fine := micros % 1000000
  (if offset < 0 then '-' else '+') :: padded 2 (seconds / 3600) ++ sep ++
    padded 2 (seconds / 60 % 60) ++
    (if seconds % 60 = 0 ∧ fine = 0 then []
     else sep ++ padded 2 (seconds % 60) ++ fractionText fine)

end DateTime

/-- Year, month and day with hyphens. -/
def Date.isoText (d : Date) : List Char :=
  Number.padded 4 d.year ++ '-' :: Number.padded 2 d.month ++ '-' :: Number.padded 2 d.day

/-- Date and time of day with a mark between them, and the offset if it is known. -/
def DateTime.isoText (mark : Char) (t : DateTime) : List Char :=
  t.date.isoText ++ mark :: Number.padded 2 t.hour ++ ':' :: Number.padded 2 t.minute ++
    ':' :: Number.padded 2 t.second ++ fractionText t.microsecond ++
    (match t.offset with
     | some offset => offsetText [':'] offset
     | none => [])

end Stencil
