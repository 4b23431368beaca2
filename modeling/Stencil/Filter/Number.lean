/-
# Filters for numbers

Numbers are rounded half away from zero to a number of decimals; a negative
number of decimals rounds to tens, hundreds and so on. What cannot be rounded
exactly stays as it is. A number without decimals is an integer afterwards, one
with decimals is fractional. An integer may gain a digit by rounding; one that
is too long to be written cannot be rounded again.

Key definitions: `Filter.roundTo`, `Filter.round`, `Filter.numberFormat`.
-/
import Stencil.Filter.Basic
import Stencil.Number.Layout
import Stencil.Number.Quantize

namespace Stencil.Filter

open Stencil.Number

def abs : Filter
  | .int n, _ => .ok (.int n.natAbs)
  | .float x, _ => .ok (.float x.abs)
  | v, _ => .ok v

/-- A number of decimals: zero if none is given, nothing if it is no integer. -/
def decimals? (argument : Option String) : Option Int :=
  match argument with
  | none => some 0
  | some s => if Text.allBlank s.toList then some 0 else parse? s.toList

/-- A number as an exact decimal, unless it has no digits. -/
def decimal? : Value → Option Decimal
  | .int n => some (Decimal.ofInt n)
  | .float x => if x.isFinite then some (shortest x) else none
  | _ => none

/-- A value with a number of decimals, if it is a number and fits. -/
def roundTo (decimals : Int) (v : Value) : Except Failure Value :=
  match decimal? v with
  | none => .ok v
  | some d =>
    if v.hasLong then .error (.fault .integerTooLong)
    else
      match placeOf decimals with
      | .absent => .ok v
      | .overflow => .error (.fault .exponentOverflow)
      | .power place =>
        match d.quantize? place with
        | none => .ok v
        | some r => if decimals ≤ 0 then .ok (.int r.toInt) else .ok (.float r.toBinary)

def round : Filter := fun v argument =>
  match decimals? argument with
  | some decimals => roundTo decimals v
  | none => .ok v

/-- The most decimals that a number can be written with, and the most that can be asked for. -/
def decimalsLimit : Int := 2147483647
def requestLimit : Int := 9223372036854775807

/-- A finite number with a sign, groups of three digits, and decimals. -/
def groupedText (decimals : Nat) (x : Binary64) : List Char :=
  let (num, den) := x.ratio
  let (whole, fraction) := fixedParts decimals num den
  (if x.isNegative then ['-'] else []) ++ withPoint false (grouped whole) fraction

/-- A rounded number in groups of three digits. It is written by way of 53 bits; an integer beyond
their range stays as it is. -/
def writeGrouped (decimals : Int) (given rounded : Value) : Except Failure Value :=
  let x := rounded.toFloat
  if requestLimit < decimals then .error (.fault .tooManyPlaces)
  else if !x.isFinite then .ok given
  else if decimalsLimit < decimals then .error (.fault .tooManyPlaces)
  else if Value.sizeLimit < decimals then .error (.fault .outOfMemory)
  else .ok (.str (String.ofList (groupedText decimals.toNat x)))

def numberFormat : Filter := fun v argument =>
  match decimals? argument, decimal? v with
  | some decimals, some _ =>
    if decimals < 0 then .ok v
    else
      match roundTo decimals v with
      | .ok rounded => writeGrouped decimals v rounded
      | .error e => .error e
  | _, _ => .ok v

end Stencil.Filter
