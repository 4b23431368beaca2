/-
# Rounding to a decimal place

A decimal is rounded to a multiple of a power of ten, half away from zero. The
result must fit into 28 digits, and powers of ten reach from `10 ^ -1000026` to
`10 ^ 999999`: what does not fit is refused, so that a number is either rounded
correctly or not touched. A place below the smallest power counts as the
smallest one, and beyond `10 ^ ±2000054` there are no places at all.

Key definitions: `Decimal.quantize?`, `placeOf`, `Decimal.toInt`.
-/
import Stencil.Number.Numeral

namespace Stencil.Number

/-- The digits a rounded decimal may have. -/
def precision : Nat := 28

/-- The exponents of the largest and the smallest place. -/
def largestPlace : Int := 999999
def smallestPlace : Int := -1000026

/-- The nearest integer to a quotient, the larger one from halfway. -/
def roundHalfUp (num den : Nat) : Nat :=
  (2 * num + den) / (2 * den)

/-- A decimal as a multiple of `10 ^ place`, half away from zero, if it has at most 28 digits. -/
def Decimal.quantize? (d : Decimal) (place : Int) : Option Decimal :=
  if place < smallestPlace ∨ largestPlace < place then none
  else if d.coefficient = 0 then some { d with exponent := place }
  else if precision < digitCount d.coefficient + (d.exponent - place) then none
  else
    let (n, d') := overPowTen d.coefficient 1 (place - d.exponent)
    let c := roundHalfUp n d'
    if precision < digitCount c then none else some ⟨d.negative, c, place⟩

/-- What can become of a number of decimal places. -/
inductive Place where
  /-- The exponent of the last digit that is kept. -/
  | power (exponent : Int)
  /-- There is no such place. -/
  | absent
  /-- The place is a power of ten beyond the largest. -/
  | overflow
  deriving DecidableEq, Repr

/-- The place that keeps `digits` decimals. -/
def placeOf (digits : Int) : Place :=
  if 2000054 < digits ∨ digits < -2000054 then .absent
  else if largestPlace < -digits then .overflow
  else .power (max (-digits) smallestPlace)

/-- A decimal that is a whole number, as an integer. -/
def Decimal.toInt (d : Decimal) : Int :=
  let n : Nat :=
    if d.coefficient = 0 then 0
    else if 0 ≤ d.exponent then d.coefficient * tenTo d.exponent.toNat
    else d.coefficient / tenTo (-d.exponent).toNat
  if d.negative then -n else n

/-- An integer as a decimal. -/
def Decimal.ofInt (n : Int) : Decimal :=
  ⟨n < 0, n.natAbs, 0⟩

end Stencil.Number
