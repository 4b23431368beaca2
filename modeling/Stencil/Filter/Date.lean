/-
# The filter for dates

Dates, moments, counts of seconds since the start of 1970 and texts in the
forms of ISO 8601 are moments; the word `now` is the present one.

Key definitions: `Value.toMoment?`, `Filter.date`.
-/
import Stencil.Calendar.Format
import Stencil.Calendar.Iso
import Stencil.Filter.Basic
import Stencil.Surroundings

namespace Stencil

namespace Calendar

/-- The moment that a text with halves of characters in it stands for. The character between date
and time of day may be anything, so it may be a half. -/
def parsePoints? (ps : List CodePoint) : Option DateTime :=
  let isHalf (i : Nat) : Bool := (ps[i]?.bind CodePoint.half?).isSome
  match [7, 8, 10].find? isHalf with
  | some i => (CodePoint.chars? (ps.set i (.char 'T'))).bind parseIso?
  | none => none

end Calendar

namespace Value

/-- The moment some seconds after the start of 1970. -/
def secondsToMoment? : Value → Option DateTime
  | int n => DateTime.ofEpoch? n 0
  | float x => DateTime.ofTimestamp? x
  | _ => none

/-- The moment that a value stands for. -/
def toMoment? (now : DateTime) : Value → Option DateTime
  | moment t => some t
  | date d => some (DateTime.ofDate d)
  | str s => if s = "now" then some now else Calendar.parseIso? s.toList
  | points ps => Calendar.parsePoints? ps
  | v => v.secondsToMoment?

end Value

namespace DateTime

/-- The format that is used if none is given. -/
def usualFormat : List Char :=
  "Y-m-d H:i:s".toList

/-- A moment in a format, in the usual one if it is empty. -/
def write (t : DateTime) (fmt : List Char) : Except Failure Value :=
  match t.format? (if fmt.isEmpty then usualFormat else fmt) with
  | some cs => .ok (.str (String.ofList cs))
  | none => .error (.fault .uncountableMoment)

end DateTime

namespace Filter

def date (world : Surroundings) : Filter := fun v argument =>
  match v.toMoment? world.now with
  | some t => t.write (argument.getD "").toList
  | none => .ok v

end Filter

end Stencil
