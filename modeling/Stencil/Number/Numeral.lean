/-
# Decimal numerals

A numeral is a run of digits with an optional fraction and an optional power of
ten. It is read exactly, as a decimal, and rounded to 53 bits in a second step.
The names of infinity and of what is not a number are read as well.

Key definitions: `readDecimal?`, `readFloat?`.
-/
import Stencil.Number.Shortest

namespace Stencil.Number

def isAsciiDigit (c : Char) : Bool :=
  c.isDigit

/-- The value of a run of ASCII digits. -/
def asciiValue (cs : List Char) : Nat :=
  ofDigits (cs.map fun c => c.toNat - 0x30)

/-- A power of ten: an optional sign and at least one digit. -/
def readExponent? (cs : List Char) : Option Int :=
  let (negative, ds) :=
    match cs with
    | '-' :: ds => (true, ds)
    | '+' :: ds => (false, ds)
    | ds => (false, ds)
  if ds.isEmpty || !ds.all isAsciiDigit then none
  else some (if negative then -(asciiValue ds : Int) else asciiValue ds)

/-- A numeral with at least one digit before or after its point. -/
def readUnsigned? (negative : Bool) (cs : List Char) : Option Decimal :=
  let whole := cs.takeWhile isAsciiDigit
  let rest := cs.dropWhile isAsciiDigit
  let (fraction, rest) :=
    match rest with
    | '.' :: more => (more.takeWhile isAsciiDigit, more.dropWhile isAsciiDigit)
    | _ => ([], rest)
  if whole.isEmpty && fraction.isEmpty then none
  else
    let exponent? :=
      match rest with
      | [] => some 0
      | 'e' :: more => readExponent? more
      | 'E' :: more => readExponent? more
      | _ => none
    exponent?.map fun e => ⟨negative, asciiValue (whole ++ fraction), e - fraction.length⟩

/-- A numeral with an optional sign. -/
def readDecimal? : List Char → Option Decimal
  | '-' :: cs => readUnsigned? true cs
  | '+' :: cs => readUnsigned? false cs
  | cs => readUnsigned? false cs

/-- The nearest number to a decimal. -/
def Decimal.toBinary (d : Decimal) : Binary64 :=
  Binary64.ofDecimal d.negative d.coefficient d.exponent

/-- The nearest number to a numeral, or the number a name stands for. -/
def readFloat? (s : String) : Option Binary64 :=
  match s with
  | "inf" => some (.infinite false)
  | "-inf" => some (.infinite true)
  | "nan" => some .nan
  | _ => (readDecimal? s.toList).map Decimal.toBinary

end Stencil.Number
