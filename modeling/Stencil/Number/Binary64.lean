/-
# Numbers with 53 significant bits

The finite numbers are `significand · 2 ^ exponent` with a sign. A number made
here has its exponent between -1074 and 971 and a significand below `2 ^ 53`,
and one below `2 ^ 52` only at the smallest exponent, so equal numbers other
than the two zeros are equal as data. Every operation computes the exact
result as a fraction of integers and rounds it once, to the nearest number and
from halfway to the even one.

The integer `scaled` counts units of `2 ^ -1074`, of which every finite number
is a multiple; comparisons are comparisons of these integers.

Key definitions: `Binary64`, `roundHalfEven`, `Binary64.ofRatio`,
`Binary64.scaled`, `Binary64.lt`, `Binary64.truncate?`, `Binary64.ofDecimal`.
-/
import Stencil.Number.Integer

namespace Stencil

inductive Binary64 where
  | finite (negative : Bool) (significand : Nat) (exponent : Int)
  | infinite (negative : Bool)
  | nan
  deriving DecidableEq, Repr

namespace Number

/-- The nearest integer to a quotient, the even one from halfway. -/
def roundHalfEven (num den : Nat) : Nat :=
  let q := num / den
  let r := num % den
  if 2 * r < den then q
  else if den < 2 * r then q + 1
  else if q % 2 = 0 then q else q + 1

/-- The quotient `num / (den · 2 ^ e)` as numerator and denominator. -/
def overPowTwo (num den : Nat) (e : Int) : Nat × Nat :=
  if 0 ≤ e then (num, den * twoTo e.toNat) else (num * twoTo (-e).toNat, den)

/-- The quotient `num / (den · 10 ^ e)` as numerator and denominator. -/
def overPowTen (num den : Nat) (e : Int) : Nat × Nat :=
  if 0 ≤ e then (num, den * tenTo e.toNat) else (num * tenTo (-e).toNat, den)

end Number

namespace Binary64

open Number

def zero (negative : Bool) : Binary64 := .finite negative 0 (-1074)

/-- The exponent at which a positive quotient has 53 significant bits, or the least one. -/
def exponentOf (num den : Nat) : Int :=
  let e : Int := (Nat.log2 num : Int) - (Nat.log2 den : Int) - 53
  let (n, d) := overPowTwo num den e
  max (if twoTo 53 ≤ n / d then e + 1 else e) (-1074)

/-- The nearest number to a quotient with a sign. -/
def ofRatio (negative : Bool) (num den : Nat) : Binary64 :=
  if num = 0 then zero negative
  else
    let e := exponentOf num den
    let (n, d) := overPowTwo num den e
    let m := roundHalfEven n d
    let (m, e) := if m = twoTo 53 then (twoTo 52, e + 1) else (m, e)
    if 971 < e then .infinite negative else .finite negative m e

/-- The nearest number to an integer, infinite beyond the range. -/
def ofInt (n : Int) : Binary64 :=
  ofRatio (n < 0) n.natAbs 1

/-- The nearest number to `coefficient · 10 ^ exponent`. The exponent may have any
size: far outside the range the answer does not depend on the digits. -/
def ofDecimal (negative : Bool) (coefficient : Nat) (exponent : Int) : Binary64 :=
  if coefficient = 0 then zero negative
  else
    let magnitude : Int := digitCount coefficient + exponent
    if 400 < magnitude then .infinite negative
    else if magnitude < -400 then zero negative
    else
      let (n, d) := overPowTen coefficient 1 (-exponent)
      ofRatio negative n d

/-- A finite number in units of `2 ^ -1074`. -/
def scaled : Binary64 → Int
  | .finite negative m e =>
    let n : Int := m * twoTo (e + 1074).toNat
    if negative then -n else n
  | _ => 0

def isFinite : Binary64 → Bool
  | .finite .. => true
  | _ => false

def isZero : Binary64 → Bool
  | .finite _ m _ => m = 0
  | _ => false

def isNegative : Binary64 → Bool
  | .finite negative _ _ => negative
  | .infinite negative => negative
  | .nan => false

def neg : Binary64 → Binary64
  | .finite negative m e => .finite (!negative) m e
  | .infinite negative => .infinite (!negative)
  | .nan => .nan

def abs : Binary64 → Binary64
  | .finite _ m e => .finite false m e
  | .infinite _ => .infinite false
  | .nan => .nan

/-- Strictly less; nothing is less or greater than what is not a number. -/
def lt : Binary64 → Binary64 → Bool
  | .nan, _ => false
  | _, .nan => false
  | .infinite a, .infinite b => a && !b
  | .infinite a, .finite .. => a
  | .finite .., .infinite b => !b
  | .finite n m e, .finite n' m' e' => (finite n m e).scaled < (finite n' m' e').scaled

def le : Binary64 → Binary64 → Bool
  | .nan, _ => false
  | _, .nan => false
  | .infinite a, .infinite b => a || !b
  | .infinite a, .finite .. => a
  | .finite .., .infinite b => !b
  | .finite n m e, .finite n' m' e' => (finite n m e).scaled ≤ (finite n' m' e').scaled

/-- The integer part of a finite number. -/
def truncate? : Binary64 → Option Int
  | .finite negative m e =>
    let n : Nat := if 0 ≤ e then m * twoTo e.toNat else m / twoTo (-e).toNat
    some (if negative then -n else n)
  | _ => none

/-- The sum of finite numbers. -/
def add (x y : Binary64) : Binary64 :=
  let n := x.scaled + y.scaled
  ofRatio (n < 0) n.natAbs (twoTo 1074)

/-- A finite number as a fraction of natural numbers, without its sign. -/
def ratio : Binary64 → Nat × Nat
  | .finite _ m e => overPowTwo m 1 (-e)
  | _ => (0, 1)

end Binary64

end Stencil
