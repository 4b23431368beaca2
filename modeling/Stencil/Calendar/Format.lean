/-
# Writing moments

A format is text in which letters stand for parts of a moment. Other characters
stand for themselves, as does any character after a backslash.

Key definitions: `DateTime.letterText?`, `DateTime.format?`.
-/
import Stencil.Calendar.DateTime

namespace Stencil

namespace Calendar

def dayNames : List String :=
  ["Monday", "Tuesday", "Wednesday", "Thursday", "Friday", "Saturday", "Sunday"]

def monthNames : List String :=
  ["January", "February", "March", "April", "May", "June", "July", "August", "September",
    "October", "November", "December"]

/-- A name out of a list, by its place. -/
def nameAt (names : List String) (i : Nat) : List Char :=
  (names.getD i "").toList

/-- The hour on a clock face of twelve. -/
def clockHour (hour : Nat) : Nat :=
  if hour % 12 = 0 then 12 else hour % 12

end Calendar

namespace DateTime

open Calendar Number

/-- The form of a moment in message headers. An unknown offset is written as minus zero. -/
def headerText (t : DateTime) : List Char :=
  (nameAt dayNames t.date.weekday).take 3 ++ ',' :: ' ' :: padded 2 t.date.day ++
    ' ' :: (nameAt monthNames (t.date.month - 1)).take 3 ++ ' ' :: padded 4 t.date.year ++
    ' ' :: padded 2 t.hour ++ ':' :: padded 2 t.minute ++ ':' :: padded 2 t.second ++ ' ' ::
    (match t.offset with
     | some offset => offsetText [] offset
     | none => ['-', '0', '0', '0', '0'])

/-- What a letter of a format stands for; the count of seconds, `U`, is not among them. -/
def letterText? (t : DateTime) : Char → Option (List Char)
  | 'd' => some (padded 2 t.date.day)
  | 'D' => some ((nameAt dayNames t.date.weekday).take 3)
  | 'j' => some (ofNat t.date.day)
  | 'l' => some (nameAt dayNames t.date.weekday)
  | 'N' => some (ofNat t.date.isoWeekday)
  | 'w' => some (ofNat (t.date.isoWeekday % 7))
  | 'z' => some (ofNat (t.date.dayOfYear - 1))
  | 'W' => some (padded 2 t.date.isoWeek)
  | 'F' => some (nameAt monthNames (t.date.month - 1))
  | 'M' => some ((nameAt monthNames (t.date.month - 1)).take 3)
  | 'm' => some (padded 2 t.date.month)
  | 'n' => some (ofNat t.date.month)
  | 't' => some (ofNat (daysInMonth t.date.year t.date.month))
  | 'L' => some [if isLeap t.date.year then '1' else '0']
  | 'Y' => some (ofNat t.date.year)
  | 'y' => some (padded 2 (t.date.year % 100))
  | 'a' => some [if t.hour < 12 then 'a' else 'p', 'm']
  | 'A' => some [if t.hour < 12 then 'A' else 'P', 'M']
  | 'g' => some (ofNat (clockHour t.hour))
  | 'G' => some (ofNat t.hour)
  | 'h' => some (padded 2 (clockHour t.hour))
  | 'H' => some (padded 2 t.hour)
  | 'i' => some (padded 2 t.minute)
  | 's' => some (padded 2 t.second)
  | 'c' => some (t.isoText 'T')
  | 'r' => some t.headerText
  | _ => none

/-- A moment in a format, unless the format asks for a count of seconds that there is not. -/
def format? (t : DateTime) : List Char → Option (List Char)
  | [] => some []
  | '\\' :: [] => some []
  | '\\' :: c :: cs => (format? t cs).map (c :: ·)
  | 'U' :: cs =>
    match t.epochSeconds?, format? t cs with
    | some seconds, some rest => some (ofInt seconds ++ rest)
    | _, _ => none
  | c :: cs => (format? t cs).map ((t.letterText? c).getD [c] ++ ·)

end DateTime

end Stencil
