/-
# Numbers with a fixed number of digits

Three layouts of a finite number without its sign: a fixed number of places
after the point, one digit before the point and a power of ten, or whichever of
the two is shorter for a number of significant digits. The digits are those of
the exact value, rounded half to even.

Key definitions: `fixedDigits`, `scientificDigits`, `generalDigits`, `grouped`.
-/
import Stencil.Number.Numeral

namespace Stencil.Number

/-- Whole part and fraction, with the point if there is a fraction or one is asked for. -/
def withPoint (keepPoint : Bool) (whole fraction : List Char) : List Char :=
  whole ++ (if fraction.isEmpty && !keepPoint then [] else '.' :: fraction)

/-- The whole part and the `places` digits after the point of a quotient. A fraction over a power
of two has no more digits than that power; the rest are zeros. -/
def fixedParts (places : Nat) (num den : Nat) : List Char × List Char :=
  let exact := min places (Nat.log2 den)
  let kept := if num * tenTo exact % den = 0 then exact else places
  let ds := padded (kept + 1) (roundHalfEven (num * tenTo kept) den)
  (ds.take (ds.length - kept), ds.drop (ds.length - kept) ++ List.replicate (places - kept) '0')

/-- A quotient with `places` digits after the point. -/
def fixedDigits (keepPoint : Bool) (places : Nat) (num den : Nat) : List Char :=
  let (whole, fraction) := fixedParts places num den
  withPoint keepPoint whole fraction

/-- The first `digits` digits of a positive quotient and where its point stands. If fewer of them
are the whole number, the rest are zeros. -/
def leadingDigits (digits : Nat) (num den : Nat) : List Char × Int :=
  let point := pointOf num den
  let exact := min digits (Nat.log2 num + Nat.log2 den + 1)
  let (n, d) := overPowTen num den (point - exact)
  let kept := if n % d = 0 then exact else digits
  let (n, d) := overPowTen num den (point - kept)
  let ds := ofNat (roundHalfEven n d)
  if digits < ds.length then (ds.take digits, point + 1)
  else (ds ++ List.replicate (digits - kept) '0', point)

/-- Digits of a quotient that may be zero. -/
def digitsOf (digits : Nat) (num den : Nat) : List Char × Int :=
  if num = 0 then (List.replicate digits '0', 1) else leadingDigits digits num den

/-- One digit, a fraction, and a power of ten. -/
def scientificDigits (letter : Char) (keepPoint : Bool) (places : Nat) (num den : Nat) : List Char :=
  let (ds, point) := digitsOf (places + 1) num den
  withPoint keepPoint (ds.take 1) (ds.drop 1) ++ exponentText letter (point - 1)

/-- `digits` significant digits, with a power of ten if the number is small or the point lies
beyond them. Trailing zeros of the fraction go unless all digits are asked for. -/
def generalDigits (letter : Char) (keepAll : Bool) (digits : Nat) (num den : Nat) : List Char :=
  let (ds, point) := digitsOf digits num den
  let strip (fraction : List Char) : List Char :=
    if keepAll then fraction else Text.trimEnd (· == '0') fraction
  if point ≤ -4 ∨ (digits : Int) < point then
    withPoint keepAll (ds.take 1) (strip (ds.drop 1)) ++ exponentText letter (point - 1)
  else
    let (whole, fraction) := placePoint ds point
    withPoint keepAll whole (strip fraction)

/-- Digits in groups of three from the right. -/
def grouped (ds : List Char) : List Char :=
  match ds with
  | [] => []
  | c :: rest =>
    if rest.length % 3 = 0 ∧ rest ≠ [] then c :: ',' :: grouped rest else c :: grouped rest

end Stencil.Number
