/-
# Scalars of YAML

A scalar in quotes is text. Without quotes it is null, a truth value, an
integer, a fractional number, a date or a moment if it is written as one, and
text otherwise. Numbers may hold underscores, which do not count; an integer
may be written in binary, octal or hexadecimal, and leading zeros do not change
its meaning.

Key definitions: `Yaml.Tag.ofPlain`, `Yaml.scalarValue`.
-/
import Stencil.Calendar.DateTime
import Stencil.Error
import Stencil.Number.Numeral
import Stencil.Text.Hex
import Stencil.Value.Basic
import Stencil.Yaml.Node

namespace Stencil.Yaml

open Number
open Text (hexValue isHexDigit)

/-- A text without its sign, and whether the sign is a minus. -/
def splitSign : List Char → Bool × List Char
  | '-' :: cs => (true, cs)
  | '+' :: cs => (false, cs)
  | cs => (false, cs)

def orUnderscore (p : Char → Bool) (c : Char) : Bool :=
  c = '_' || p c

/-- One or more digits of a base, with underscores. -/
def isRun (digit : Char → Bool) (cs : List Char) : Bool :=
  !cs.isEmpty && cs.all (orUnderscore digit)

def dropUnderscores (cs : List Char) : List Char :=
  cs.filter (· ≠ '_')

def isBinaryDigit (c : Char) : Bool :=
  c = '0' || c = '1'

def isOctalDigit (c : Char) : Bool :=
  '0' ≤ c && c ≤ '7'

/-- Whether a text is written as an integer. -/
def isInteger (cs : List Char) : Bool :=
  match (splitSign cs).2 with
  | '0' :: 'b' :: ds => isRun isBinaryDigit ds
  | '0' :: 'o' :: ds => isRun isOctalDigit ds
  | '0' :: 'x' :: ds => isRun isHexDigit ds
  | ds => isRun Char.isDigit ds && cs.head? ≠ some '_'

/-- A power of ten, where a sign may be asked for. -/
def isExponent (needsSign : Bool) : List Char → Bool
  | 'e' :: cs => isPower cs
  | 'E' :: cs => isPower cs
  | _ => false
where
  isPower (cs : List Char) : Bool :=
    let signed := cs.head? = some '-' || cs.head? = some '+'
    let ds := (splitSign cs).2
    (signed || !needsSign) && !ds.isEmpty && ds.all Char.isDigit

/-- A number with a point or a power of ten or both. -/
def isFractional (cs : List Char) : Bool :=
  match cs with
  | '.' :: rest =>
    let tail := rest.dropWhile (orUnderscore Char.isDigit)
    tail.length < rest.length && (tail.isEmpty || isExponent true tail)
  | c :: rest =>
    if c.isDigit then
      match rest.dropWhile (orUnderscore Char.isDigit) with
      | '.' :: more =>
        let tail := more.dropWhile (orUnderscore Char.isDigit)
        tail.isEmpty || isExponent false tail
      | tail => isExponent false tail
    else false
  | [] => false

/-- Whether a text is written as a fractional number, or as the name of one that is none. -/
def isFloat (cs : List Char) : Bool :=
  let body := (splitSign cs).2
  [".inf", ".Inf", ".INF"].any (·.toList = body) || [".nan", ".NaN", ".NAN"].any (·.toList = cs) ||
    isFractional body

/-- A number of `least` to `most` digits at the head of a text. -/
def takeNumber? (least most : Nat) (cs : List Char) : Option (Nat × List Char) :=
  let ds := (cs.takeWhile Char.isDigit).take most
  if ds.length < least then none else some (asciiValue ds, cs.drop ds.length)

def expect? (c : Char) : List Char → Option (List Char)
  | [] => none
  | d :: cs => if d = c then some cs else none

/-- The offset at the end of a moment: whether its sign is a plus, and its minutes. It may be left
out. -/
def readOffset? (cs : List Char) : Option (Bool × Nat) :=
  match cs.dropWhile fun c => c = ' ' || c = '\t' with
  | [] => if cs.isEmpty then some (false, 0) else none
  | ['Z'] => some (false, 0)
  | sign :: rest =>
    if sign = '-' || sign = '+' then do
      let (hours, rest) ← takeNumber? 1 2 rest
      let minutes ← match rest with
        | [] => some 0
        | ':' :: ds => if ds.length = 2 && ds.all Char.isDigit then some (asciiValue ds) else none
        | _ => none
      pure (sign = '+', hours * 60 + minutes)
    else none

/-- Microseconds from the digits of a fraction, rounded by the seventh of them. -/
def microseconds (fraction : List Char) : Nat :=
  let micros := asciiValue ((fraction ++ ['0', '0', '0', '0', '0', '0']).take 6)
  if fraction[6]?.any (fun c => '4' < c) then micros + 1 else micros

/-- A moment as it is written, and the seconds that its clock was ahead of universal time. -/
structure Reading where
  moment : DateTime
  ahead : Int

/-- The time of day after a date. A fraction that makes up a whole second counts as a second of the
offset. -/
def readClock? (date : Date) (cs : List Char) : Option Reading := do
  let cs ← match cs with
    | 'T' :: cs => some cs
    | 't' :: cs => some cs
    | c :: cs => if c = ' ' || c = '\t' then some (cs.dropWhile fun c => c = ' ' || c = '\t') else none
    | [] => none
  let (hour, cs) ← takeNumber? 1 2 cs
  let (minute, cs) ← takeNumber? 2 2 (← expect? ':' cs)
  let (second, cs) ← takeNumber? 2 2 (← expect? ':' cs)
  let (fraction, cs) := match cs with
    | '.' :: cs => (cs.takeWhile Char.isDigit, cs.dropWhile Char.isDigit)
    | cs => ([], cs)
  let (plus, minutes) ← readOffset? cs
  let micros := microseconds fraction
  let ahead : Int := minutes * 60 + (if micros = 1000000 then 1 else 0)
  some ⟨⟨date, hour, minute, second, micros % 1000000, none⟩, if plus then ahead else -ahead⟩

/-- A date, or a date and a time of day. -/
def readMoment? (cs : List Char) : Option (Date ⊕ Reading) := do
  let (year, rest) ← takeNumber? 4 4 cs
  let (month, rest) ← takeNumber? 1 2 (← expect? '-' rest)
  let (day, rest) ← takeNumber? 1 2 (← expect? '-' rest)
  let date : Date := ⟨year, month, day⟩
  if rest.isEmpty then some (.inl date) else (readClock? date rest).map .inr

/-- Whether a text is written as a date, with all its digits, or as a moment. -/
def isMoment (cs : List Char) : Bool :=
  match readMoment? cs with
  | some (.inl _) => cs.length = 10
  | some (.inr _) => true
  | none => false

/-- What a text without quotes is. -/
def Tag.ofPlain (cs : List Char) : Tag :=
  let isOneOf (names : List String) : Bool := names.any (·.toList = cs)
  if isOneOf ["true", "True", "TRUE", "false", "False", "FALSE"] then bool
  else if isFloat cs then float
  else if isInteger cs then int
  else if isOneOf ["<<"] then merge
  else if isOneOf ["", "~", "null", "Null", "NULL"] then null
  else if isMoment cs then moment
  else if isOneOf ["="] then standard
  else text

/-- Why a node stands for nothing. -/
inductive Problem where
  /-- It is not written by the rules, or a mapping has a key twice. -/
  | malformed
  | fault (f : Fault)
  deriving DecidableEq, Repr

/-- The number with some digits to a base. -/
def readDigits (base : Nat) (digit : Char → Bool) (cs : List Char) : Except Problem Int :=
  if cs.isEmpty || !cs.all digit then .error (.fault .unreadableNumber)
  else .ok (cs.foldl (fun n d => base * n + hexValue d) 0 : Nat)

def readInteger (cs : List Char) : Except Problem Value := do
  let text := dropUnderscores cs
  if text.isEmpty then throw (.fault .emptyNumber)
  let (negative, ds) := splitSign text
  let n ← match ds with
    | '0' :: 'b' :: ds => readDigits 2 isBinaryDigit ds
    | '0' :: 'o' :: ds => readDigits 8 isOctalDigit ds
    | '0' :: 'x' :: ds => readDigits 16 isHexDigit ds
    | ds => match parse? ds with
      | some n => .ok n
      | none => .error (.fault .unreadableNumber)
  pure (.int (if negative then -n else n))

/-- The number of a numeral or a name; blanks around it do not count. -/
def float? (cs : List Char) : Option Binary64 :=
  let (negative, ds) := splitSign (Text.trim cs)
  if ["inf", "infinity"].any (·.toList = ds) then some (.infinite negative)
  else if "nan".toList = ds then some .nan
  else
    let ds := ds.map fun c => ((Text.decimalValue? c).map Nat.digitChar).getD c
    (readUnsigned? negative ds).map Decimal.toBinary

def readFloat (cs : List Char) : Except Problem Value := do
  let text := (dropUnderscores cs).map Char.toLower
  if text.isEmpty then throw (.fault .emptyNumber)
  let (negative, ds) := splitSign text
  let x ←
    if ds = ".inf".toList then .ok (.infinite false)
    else if ds = ".nan".toList then .ok .nan
    else match float? ds with
      | some x => .ok x
      | none => .error (.fault .unreadableNumber)
  pure (.float (if negative then x.neg else x))

def readBool (cs : List Char) : Except Problem Value :=
  let word := String.ofList (cs.map Char.toLower)
  if ["true", "yes", "y", "on"].contains word then .ok (.bool true)
  else if ["false", "no", "n", "off"].contains word then .ok (.bool false)
  else .error (.fault .unknownTruth)

/-- A moment is brought to universal time by its offset; the calendar has to have it then too. -/
def readMoment (cs : List Char) : Except Problem Value :=
  match readMoment? cs with
  | none => .error .malformed
  | some (.inl date) =>
    if date.valid then .ok (.date date) else .error (.fault .unreadableNumber)
  | some (.inr r) =>
    if !r.moment.valid then .error (.fault .unreadableNumber)
    else if r.ahead = 0 then .ok (.moment r.moment)
    else
      match DateTime.ofEpoch? (r.moment.clockSeconds - r.ahead) r.moment.microsecond with
      | some t => .ok (.moment { t with offset := none })
      | none => .error (.fault .outsideCalendar)

/-- What a scalar with a tag stands for. -/
def scalarValue (tag : Tag) (cs : List Char) : Except Problem Value :=
  match tag with
  | .null => .ok .null
  | .bool => readBool cs
  | .int => readInteger cs
  | .float => readFloat cs
  | .moment => readMoment cs
  | .text => .ok (.str (String.ofList cs))
  | _ => .error .malformed

end Stencil.Yaml
