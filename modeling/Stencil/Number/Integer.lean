/-
# Integers in text

Integers are written in plain decimal and read in a wider form: with a sign,
in the decimal digits of any script, and with single underscores between
digits. Numerals beyond a fixed length are refused, because reading and writing
them takes time that grows with the square of their length.

Key definitions: `ofNat`, `ofInt`, `isLong`, `parse?`, `digitLimit`, `twoTo`,
`tenTo`.
-/
import Stencil.Text.Blank
import Stencil.Text.Digits

namespace Stencil.Number

/-- A power of two. -/
def twoTo (exponent : Nat) : Nat :=
  Nat.pow 2 exponent

/-- A power of ten. -/
def tenTo (exponent : Nat) : Nat :=
  Nat.pow 10 exponent

/-- The most digits a numeral may have. -/
def digitLimit : Nat := 4300

/-- A natural number in decimal. -/
def ofNat (n : Nat) : List Char :=
  Nat.toDigits 10 n

/-- An integer in decimal, with a sign if it is negative. -/
def ofInt (n : Int) : List Char :=
  if n < 0 then '-' :: ofNat n.natAbs else ofNat n.natAbs

/-- A number in decimal with zeros in front up to a width. -/
def padded (width n : Nat) : List Char :=
  let ds := ofNat n
  List.replicate (width - ds.length) '0' ++ ds

/-- The number of decimal digits; zero has one. -/
def digitCount (n : Nat) : Nat :=
  (ofNat n).length

/-- Whether an integer has more digits than a numeral may have. -/
def isLong (n : Int) : Bool :=
  digitLimit < digitCount n.natAbs

/-- The values of decimal digits, with at most one underscore between neighbours. -/
def digitValues? : List Char → Option (List Nat)
  | [] => none
  | [c] => (Text.decimalValue? c).map fun d => [d]
  | c :: '_' :: cs =>
    match Text.decimalValue? c, digitValues? cs with
    | some d, some ds => some (d :: ds)
    | _, _ => none
  | c :: cs =>
    match Text.decimalValue? c, digitValues? cs with
    | some d, some ds => some (d :: ds)
    | _, _ => none

/-- The number with the given digits, the first one counting most. -/
def ofDigits (ds : List Nat) : Nat :=
  ds.foldl (fun n d => 10 * n + d) 0

/-- The number a numeral without a sign stands for. -/
def parseNat? (cs : List Char) : Option Nat :=
  match digitValues? cs with
  | some ds => if ds.length ≤ digitLimit then some (ofDigits ds) else none
  | none => none

/-- The integer a numeral stands for; blanks around it do not count. -/
def parse? (cs : List Char) : Option Int :=
  match Text.trim cs with
  | '-' :: ds => (parseNat? ds).map fun n => -(n : Int)
  | '+' :: ds => (parseNat? ds).map Int.ofNat
  | ds => (parseNat? ds).map Int.ofNat

end Stencil.Number
