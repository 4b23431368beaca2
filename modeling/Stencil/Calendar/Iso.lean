/-
# Reading dates

Dates are read in the forms of ISO 8601: with hyphens or without, by month and
day or by week and day of the week. A time of day may follow after any one
character, with colons or without, cut short after the hours or the minutes,
with a fraction of a second of any length (digits beyond the microseconds do
not count). It may end in an offset from universal time or in `Z`.

The reader takes what it needs and is lenient where nothing can be mistaken: in
front of an offset one stray character is passed over, a NUL ends the text, and
a third colon may introduce the fraction.

Key definitions: `Calendar.parseIso?`.
-/
import Stencil.Calendar.DateTime

namespace Stencil.Calendar

open Number

def isNumeral (c : Char) : Bool := c.isDigit

/-- Exactly `count` ASCII digits at the head of a text. -/
def takeDigits? (count : Nat) (cs : List Char) : Option (Nat × List Char) :=
  let ds := cs.take count
  if ds.length = count && ds.all isNumeral then
    some (ofDigits (ds.map fun c => c.toNat - 0x30), cs.drop count)
  else none

/-- The length of the date at the head of a text, told from its fifth and sixth characters. The
week form has an optional day; where a hyphen and a digit could be either that day or the time
after a hyphen, the time is assumed, and without hyphens an even number of digits after the
week means that none of them is a day. -/
def dateLength (cs : List Char) : Nat :=
  let length := cs.length
  if length = 7 then 7
  else if cs[4]? = some '-' then
    if cs[5]? = some 'W' then
      if cs[8]? = some '-' then
        if length = 9 then length + 1
        else if (cs[10]?.map isNumeral).getD false then 8 else 10
      else 8
    else 10
  else if cs[4]? = some 'W' then
    let stop := 7 + ((cs.drop 7).takeWhile isNumeral).length
    if stop < 9 then stop else if stop % 2 = 0 then 7 else 8
  else 8

/-- A date that fills its text. -/
def parseDate? (cs : List Char) : Option Date := do
  let (year, cs) ← takeDigits? 4 cs
  let hyphens := cs.head? = some '-'
  let cs := if hyphens then cs.drop 1 else cs
  if cs.head? = some 'W' then
    let (week, cs) ← takeDigits? 2 (cs.drop 1)
    if cs.isEmpty then Date.ofIsoWeek? year week 1
    else
      let cs ← if hyphens then (if cs.head? = some '-' then some (cs.drop 1) else none) else some cs
      let (day, _) ← takeDigits? 1 cs
      Date.ofIsoWeek? year week day
  else
    let (month, cs) ← takeDigits? 2 cs
    let cs ← if hyphens then (if cs.head? = some '-' then some (cs.drop 1) else none) else some cs
    let (day, cs) ← takeDigits? 2 cs
    if cs.isEmpty then some ⟨year, month, day⟩ else none

/-- A time of day as it was read, and whether something was left over after it. -/
structure ClockReading where
  hour : Nat := 0
  minute : Nat := 0
  second : Nat := 0
  microsecond : Nat := 0
  leftOver : Bool := false

/-- Enough digits for the microseconds, and more that do not count. -/
def parseFraction? (r : ClockReading) (cs : List Char) : Option ClockReading := do
  let count := min cs.length 6
  let (n, rest) ← takeDigits? count cs
  let rest := rest.dropWhile isNumeral
  some { r with
    microsecond := n * Number.tenTo (6 - count)
    leftOver := !(rest.isEmpty || rest.head? = some '\x00') }

/-- The part of a clock reading that two digits are for. -/
def ClockReading.set (r : ClockReading) (field n : Nat) : ClockReading :=
  match field with
  | 0 => { r with hour := n }
  | 1 => { r with minute := n }
  | _ => { r with second := n }

/-- Hours, minutes and seconds from the given field on, then a fraction. `colons` says whether
a colon followed the hours. -/
def parseFields? (r : ClockReading) (colons : Bool) : Nat → Nat → List Char → Option ClockReading
  | 0, _, cs => parseFraction? r cs
  | more + 1, field, cs => do
    let (n, rest) ← takeDigits? 2 cs
    let r := r.set field n
    match rest with
    | [] => some r
    | [c] => some { r with leftOver := c ≠ '\x00' }
    | c :: tail =>
      let colons := if field = 0 then c = ':' else colons
      if colons && c = ':' then parseFields? r colons more (field + 1) tail
      else if c = '.' || c = ',' then parseFraction? r tail
      else if !colons then parseFields? r colons more (field + 1) rest
      else none

def parseClock? (cs : List Char) : Option ClockReading :=
  parseFields? {} true 3 0 cs

/-- An offset in microseconds, less than a day in either direction. -/
def parseOffset? (sign : Char) (cs : List Char) : Option Int := do
  let r ← parseClock? cs
  if r.leftOver then none
  else
    let seconds := r.hour * 3600 + r.minute * 60 + r.second
    let micros : Int := if seconds = 0 then 0 else seconds * 1000000 + r.microsecond
    if micros < 86400 * 1000000 then some (if sign = '-' then -micros else micros) else none

/-- A time of day and perhaps an offset. -/
def parseTime? (cs : List Char) : Option (ClockReading × Option Int) := do
  let startsOffset (c : Char) : Bool := c = '+' || c = '-' || c = 'Z'
  let clock := cs.takeWhile fun c => !startsOffset c
  let r ← parseClock? clock
  match cs.drop clock.length with
  | [] => if r.leftOver then none else some (r, none)
  | 'Z' :: rest => if rest.isEmpty || rest.head? = some '\x00' then some (r, some 0) else none
  | sign :: rest => do
    let offset ← parseOffset? sign rest
    some (r, some offset)

/-- The bytes of a text as characters. Only ASCII characters mean anything in a date, so no other
character can be taken for a part of it; but lengths are counted in bytes. -/
def bytesOf (cs : List Char) : List Char :=
  cs.flatMap fun c => (String.utf8EncodeChar c).map fun b => Char.ofNat b.toNat

/-- The number of bytes of the character that starts with a byte. -/
def widthFrom (lead : Char) : Nat :=
  if lead.toNat < 0x80 then 1
  else if lead.toNat < 0xe0 then 2
  else if lead.toNat < 0xf0 then 3
  else 4

/-- A moment in one of the forms of ISO 8601, in bytes. -/
def parseBytes? (cs : List Char) : Option DateTime := do
  let length := dateLength cs
  let date ← parseDate? (cs.take length)
  let (r, offset) ←
    match cs.drop length with
    | [] => some ({}, none)
    | mark :: rest => parseTime? ((mark :: rest).drop (widthFrom mark))
  let t : DateTime := ⟨date, r.hour, r.minute, r.second, r.microsecond, offset⟩
  if t.valid then some t else none

/-- A moment in one of the forms of ISO 8601. -/
def parseIso? (cs : List Char) : Option DateTime :=
  parseBytes? (bytesOf cs)

end Stencil.Calendar
