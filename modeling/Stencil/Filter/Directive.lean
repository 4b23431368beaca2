/-
# Text with a directive for a value

A directive is a percent sign, flags, a width, a precision, a letter for the
size (which is passed over), and the letter of a conversion. A format takes
exactly one value: the directives in it use it up, be it for a width. Two
percent signs next to each other are one and use none. A format that does not fit
its value makes nothing, and one that asks for more text than there can be stops
the program.

The flags are a minus sign for left alignment, a plus sign or a space for the
place of the sign, a number sign for the longer form, and a zero for zeros in
front.

Key definitions: `Directive`, `Directive.parse?`, `Directive.convert`,
`Filter.formatText`.
-/
import Stencil.Filter.Basic
import Stencil.Number.Layout

namespace Stencil

open Number

structure Directive where
  left : Bool
  plus : Bool
  blank : Bool
  long : Bool
  zero : Bool
  width : Nat
  precision : Option Nat
  conversion : Char

namespace Directive

/-- The value that a format has not used yet. -/
abbrev Supply := Option Value

/-- The largest width and the largest precision that can be asked for. -/
def widthLimit : Nat := 9223372036854775807
def precisionLimit : Nat := 2147483647

/-- The largest precision of an integer. -/
def integerPrecisionLimit : Nat := 2147483644

/-- Why a directive makes no text of a value. -/
inductive Refusal where
  /-- The value is of another kind, or the directive is none. -/
  | misfit
  /-- The text would be too long to be held. -/
  | tooLong
  deriving DecidableEq, Repr

/-- An integer or a truth value as an integer. -/
def integer? : Value → Option Int
  | .int n => some n
  | .bool b => some (if b then 1 else 0)
  | _ => none

/-- A number written in the directive or, for a star, taken from the value. -/
def measure? (supply : Supply) : List Char → Option (Option Int × Supply × List Char)
  | '*' :: cs =>
    match supply.bind integer? with
    | some n => some (some n, none, cs)
    | none => none
  | cs =>
    let ds := cs.takeWhile Char.isDigit
    let rest := cs.dropWhile Char.isDigit
    if ds.isEmpty then some (none, supply, rest) else some (some (asciiValue ds), supply, rest)

/-- The precision after its point. -/
def precision? (supply : Supply) : List Char → Option (Option Nat × Supply × List Char)
  | '.' :: cs =>
    match measure? supply cs with
    | some (n, supply, rest) =>
      let n := n.getD 0
      if (precisionLimit : Int) < n ∨ n < -(precisionLimit : Int) - 1 then none
      else some (some n.toNat, supply, rest)
    | none => none
  | cs => some (none, supply, cs)

def isFlag (c : Char) : Bool :=
  c = '-' || c = '+' || c = ' ' || c = '#' || c = '0'

def isSizeLetter (c : Char) : Bool :=
  c = 'h' || c = 'l' || c = 'L'

/-- A directive after its percent sign. -/
def parse? (supply : Supply) (cs : List Char) : Option (Directive × Supply × List Char) :=
  let flags := cs.takeWhile isFlag
  match measure? supply (cs.dropWhile isFlag) with
  | none => none
  | some (width, supply, rest) =>
    let width := width.getD 0
    if (widthLimit : Int) < width ∨ width < -(widthLimit : Int) then none
    else
      match precision? supply rest with
      | none => none
      | some (precision, supply, rest) =>
        let rest :=
          match rest with
          | c :: more => if isSizeLetter c then more else rest
          | [] => rest
        match rest with
        | [] => none
        | conversion :: rest =>
          some ({
            left := flags.contains '-' || width < 0
            plus := flags.contains '+'
            blank := flags.contains ' '
            long := flags.contains '#'
            zero := flags.contains '0'
            width := width.natAbs
            precision
            conversion }, supply, rest)

/-- Text brought to the width. -/
def alignText (d : Directive) (cs : List Char) : List Char :=
  let gap := List.replicate (d.width - cs.length) ' '
  if d.left then cs ++ gap else gap ++ cs

/-- A number brought to the width: zeros go between its head and its digits. -/
def alignNumber (d : Directive) (negative : Bool) (head digits : List Char) : List Char :=
  let sign := if negative then ['-'] else if d.plus then ['+'] else if d.blank then [' '] else []
  let head := sign ++ head
  let gap := d.width - (head.length + digits.length)
  if d.left then head ++ digits ++ List.replicate gap ' '
  else if d.zero then head ++ List.replicate gap '0' ++ digits
  else List.replicate gap ' ' ++ head ++ digits

/-- An integer in some base, with as many digits as the precision asks for. -/
def integerText (d : Directive) (base : Nat) (mark : List Char) (n : Int) : List Char :=
  let digits := Nat.toDigits base n.natAbs
  let digits := if d.conversion = 'X' then digits.map Char.toUpper else digits
  let zeros := List.replicate (d.precision.getD 0 - digits.length) '0'
  d.alignNumber (n < 0) (if d.long then mark else []) (zeros ++ digits)

/-- A number whose integer part is wanted. -/
def wholePart? : Value → Option Int
  | .float x => x.truncate?
  | v => integer? v

/-- A number of 53 bits, unless the integer is beyond their range. -/
def float? : Value → Option Binary64
  | .float x => some x
  | v =>
    match integer? v with
    | some n => let x := Binary64.ofInt n; if x.isFinite then some x else none
    | none => none

/-- The digits of a finite number without its sign. -/
def floatDigits (d : Directive) (x : Binary64) : List Char :=
  let (num, den) := x.ratio
  let places := d.precision.getD 6
  match d.conversion with
  | 'e' => scientificDigits 'e' d.long places num den
  | 'E' => scientificDigits 'E' d.long places num den
  | 'g' => generalDigits 'e' d.long (max places 1) num den
  | 'G' => generalDigits 'E' d.long (max places 1) num den
  | _ => fixedDigits d.long places num den

/-- The name of what is not finite. -/
def floatName (d : Directive) (x : Binary64) : List Char :=
  let name := match x with
    | .nan => ['n', 'a', 'n']
    | _ => ['i', 'n', 'f']
  if d.conversion.isUpper then name.map Char.toUpper else name

def floatText (d : Directive) (x : Binary64) : List Char :=
  d.alignNumber x.isNegative [] (if x.isFinite then d.floatDigits x else d.floatName x)

/-- A character given by itself or by its number. -/
def char? : Value → Option Char
  | .str s =>
    match s.toList with
    | [c] => some c
    | _ => none
  | v =>
    match integer? v with
    | some n => if 0 ≤ n ∧ n < 0x110000 then some (Char.ofNat n.toNat) else none
    | none => none

/-- Text cut to the precision and brought to the width. -/
def wordText (d : Directive) (cs : List Char) : List Char :=
  d.alignText (match d.precision with
    | some n => cs.take n
    | none => cs)

/-- The integer that a directive shows in decimal; it may not have too many digits. -/
def decimalPart? (v : Value) : Option Int :=
  match wholePart? v with
  | some n => if isLong n then none else some n
  | none => none

def isDecimalLetter (c : Char) : Bool :=
  c = 'd' || c = 'i' || c = 'u'

def isFloatLetter (c : Char) : Bool :=
  c = 'e' || c = 'E' || c = 'f' || c = 'F' || c = 'g' || c = 'G'

/-- Whether a directive can show a value. -/
def fits (d : Directive) (v : Value) : Bool :=
  let hasRoom := d.precision.getD 0 ≤ integerPrecisionLimit
  if ['s', 'r', 'a'].contains d.conversion then !v.hasLong
  else if d.conversion = 'c' then (char? v).isSome
  else if ['x', 'X', 'o'].contains d.conversion then (integer? v).isSome && hasRoom
  else if isDecimalLetter d.conversion then (decimalPart? v).isSome && hasRoom
  else isFloatLetter d.conversion && (float? v).isSome

/-- A value in the form that a directive asks for; nothing if it does not fit. Listings show the
value as it was given. -/
def valueText (d : Directive) (given v : Value) : List Char :=
  match d.conversion with
  | 's' => d.wordText v.plain.toList
  | 'r' => d.wordText given.inspect.toList
  | 'a' => d.wordText (Text.escapeBeyondAscii given.inspect.toList)
  | 'c' => shown (char? v) fun c => d.alignText [c]
  | 'x' => shown (integer? v) (d.integerText 16 ['0', 'x'])
  | 'X' => shown (integer? v) (d.integerText 16 ['0', 'X'])
  | 'o' => shown (integer? v) (d.integerText 8 ['0', 'o'])
  | c =>
    if isDecimalLetter c then shown (decimalPart? v) (d.integerText 10 [])
    else shown (float? v) d.floatText
where
  shown {α : Type} (x : Option α) (text : α → List Char) : List Char :=
    (x.map text).getD []

/-- Whether a directive leads to more digits or blanks than a text has room for. The precision of
text only cuts it. -/
def isTooLong (d : Directive) (v : Value) : Bool :=
  let finite := match v with
    | .float x => x.isFinite
    | _ => true
  Value.sizeLimit < d.width ||
    (!(['s', 'r', 'a', 'c'].contains d.conversion) && finite && Value.sizeLimit < d.precision.getD 0)

/-- A value in the form that a directive asks for. -/
def convert (d : Directive) (given v : Value) : Except Refusal (List Char) :=
  if !d.fits v then .error .misfit
  else if d.isTooLong v then .error .tooLong
  else .ok (d.valueText given v)

end Directive

namespace Filter

/-- The text of a format, with at most `turns` directives. -/
def formatUpTo (given : Value) :
    Nat → Directive.Supply → List Char → Except Directive.Refusal (List Char × Directive.Supply)
  | _, supply, [] => .ok ([], supply)
  | 0, _, _ :: _ => .error .misfit
  | turns + 1, supply, c :: cs =>
    if c = '%' then
      match cs with
      | '%' :: rest => (formatUpTo given turns supply rest).map fun r => ('%' :: r.1, r.2)
      | _ =>
        match Directive.parse? supply cs with
        | some (d, some v, rest) => do
          let made ← d.convert given v
          let (more, supply) ← formatUpTo given turns none rest
          pure (made ++ more, supply)
        | _ => .error .misfit
    else (formatUpTo given turns supply cs).map fun r => (c :: r.1, r.2)

/-- The text of a format that uses up its value; listings show the value that was given. -/
def formatText (fmt : List Char) (given v : Value) : Except Directive.Refusal (List Char) :=
  match formatUpTo given fmt.length (some v) fmt with
  | .ok (made, none) => .ok made
  | .ok (_, some _) => .error .misfit
  | .error r => .error r

/-- The first directive of a format. -/
def firstDirective? (supply : Directive.Supply) : List Char → Option Directive
  | [] => none
  | '%' :: '%' :: cs => firstDirective? supply cs
  | c :: cs => if c = '%' then (Directive.parse? supply cs).map (·.1) else firstDirective? supply cs

/-- The number of a half of a character is that half where a character is asked for. -/
def asHalf (fmt : List Char) : Value → Value
  | .int n =>
    let asked := (firstDirective? (some (.int n)) fmt).any fun d => d.conversion = 'c'
    if asked && 0xd800 ≤ n && n < 0xe000 then .ofPoints [.ofNumber n.toNat] else .int n
  | v => v

/-- The argument is the format; without one, and where it does not fit, the value stays. -/
def format : Filter := fun v argument =>
  match argument with
  | none => .ok v
  | some fmt => (asHalf fmt.toList v).throughStandIns fmt.toList fun w =>
    match formatText fmt.toList v w with
    | .ok made => .ok (.str (String.ofList made))
    | .error .misfit => .ok v
    | .error .tooLong => .error (.fault .outOfMemory)

end Filter

end Stencil
