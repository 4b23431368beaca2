/-
# The shortest decimal that reads back

A finite number is written with the fewest significant digits that still read
back as the same number; among several such decimals the nearest one is taken,
and from halfway the one whose last digit is even. On a grid of decimals with a
given number of digits only the two neighbours of the number have to be tried:
if any point of the grid reads back, one of them does.

Key definitions: `pointOf`, `shortest`, `Decimal.text`, `floatText`.
-/
import Stencil.Number.Binary64

namespace Stencil.Number

/-- The `k` with `10 ^ (k - 1) ≤ num / den < 10 ^ k`, for a positive quotient. -/
def pointOf (num den : Nat) : Int :=
  if den ≤ num then digitCount (num / den)
  else
    let k : Int := 1 - digitCount (den / num)
    let (n, d) := overPowTen num den k
    if d ≤ n then k + 1 else k

/-- A decimal: a coefficient and the power of ten it counts. -/
structure Decimal where
  negative : Bool
  coefficient : Nat
  exponent : Int
  deriving DecidableEq, Repr

/-- Of the two neighbours on the grid of `10 ^ exponent`, the one that reads back, or the
nearer one if both do. -/
def readsBackAt (m : Nat) (e : Int) (num den : Nat) (exponent : Int) : Option Nat :=
  let (n, d) := overPowTen num den exponent
  let low := n / d
  let target := Binary64.finite false m e
  let lowBack := Binary64.ofDecimal false low exponent == target
  let highBack := Binary64.ofDecimal false (low + 1) exponent == target
  if lowBack && highBack then some (roundHalfEven n d)
  else if lowBack then some low
  else if highBack then some (low + 1)
  else none

/-- The first grid with a decimal that reads back, from `digits` digits on. -/
def shortestFrom (m : Nat) (e : Int) (num den : Nat) (point : Int) : Nat → Nat → Decimal
  | 0, digits =>
    let (n, d) := overPowTen num den (point - digits)
    ⟨false, roundHalfEven n d, point - digits⟩
  | more + 1, digits =>
    match readsBackAt m e num den (point - digits) with
    | some c => ⟨false, c, point - digits⟩
    | none => shortestFrom m e num den point more (digits + 1)

/-- A finite number as the shortest decimal that reads back; zero has one digit. -/
def shortest : Binary64 → Decimal
  | .finite negative 0 _ => ⟨negative, 0, 0⟩
  | .finite negative m e =>
    let (num, den) := overPowTwo m 1 (-e)
    { shortestFrom m e num den (pointOf num den) 16 1 with negative }
  | _ => ⟨false, 0, 0⟩

/-- Digits with the point after `point` of them; zeros fill what is missing on either side. -/
def placePoint (ds : List Char) (point : Int) : List Char × List Char :=
  if point ≤ 0 then (['0'], List.replicate (-point).toNat '0' ++ ds)
  else
    let p := point.toNat
    if ds.length ≤ p then (ds ++ List.replicate (p - ds.length) '0', [])
    else (ds.take p, ds.drop p)

/-- The power of ten behind a coefficient: a sign and at least two digits. -/
def exponentText (letter : Char) (e : Int) : List Char :=
  letter :: (if e < 0 then '-' else '+') :: padded 2 e.natAbs

/-- The digits of a decimal without their trailing zeros, and where the point stands. -/
def significant (d : Decimal) : List Char × Int :=
  let ds := ofNat d.coefficient
  let kept := Text.trimEnd (· == '0') ds
  (if kept.isEmpty then ['0'] else kept, if d.coefficient = 0 then 1 else ds.length + d.exponent)

/-- A decimal in the form of a floating-point numeral: positional from `1e-4` up to below
`1e16`, with a power of ten outside; a positional numeral always has a fraction. -/
def Decimal.text (d : Decimal) : List Char :=
  let (ds, point) := significant d
  let sign := if d.negative then ['-'] else []
  if -4 < point ∧ point ≤ 16 then
    let (whole, fraction) := placePoint ds point
    sign ++ whole ++ '.' :: (if fraction.isEmpty then ['0'] else fraction)
  else
    let (whole, fraction) := placePoint ds 1
    sign ++ whole ++ (if fraction.isEmpty then [] else '.' :: fraction) ++
      exponentText 'e' (point - 1)

/-- The shortest text that reads back. -/
def floatText : Binary64 → List Char
  | .nan => ['n', 'a', 'n']
  | .infinite negative => (if negative then ['-'] else []) ++ ['i', 'n', 'f']
  | x => (shortest x).text

end Stencil.Number
