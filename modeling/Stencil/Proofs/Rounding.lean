/-
# Integers rounded to powers of ten

An integer that is rounded to tens, hundreds and so on becomes the multiple of that
power of ten that is nearest to it, and from halfway the one farther from zero.
There is just one such multiple (`IsRounded.unique`), and what holds of rounding
holds of that description alone: it goes the same way on both sides of zero, it
never turns an order around, and a multiple stays as it is.

The work is done on decimals of 28 digits. An integer below `10 ^ 28` fits, and so
does its multiple, although that may have a digit more: the zeros at its end are no
digits of the decimal.

Key definitions: `Number.IsRounded`, `Number.toMultiple`.
Key theorems: `Number.IsRounded.unique`, `Number.IsRounded.mono`,
`Number.isRounded_toMultiple`, `Filter.roundTo_place`, `Filter.round_half_away`.
-/
import Mathlib.Tactic.ByContra
import Stencil.Filter.Builtin
import Stencil.Proofs.Decimal

namespace Stencil
namespace Number

/-- An integer is rounded to a multiple of a unit: a nearest one, from halfway the one farther from
zero. -/
structure IsRounded (unit : Nat) (v r : Int) : Prop where
  multiple : (unit : Int) ∣ r
  near : 2 * (r - v).natAbs ≤ unit
  away : ∀ m : Int, (unit : Int) ∣ m → (m - v).natAbs = (r - v).natAbs → m.natAbs ≤ r.natAbs

namespace IsRounded

variable {unit : Nat} {v w r s : Int}

/-- Multiples that differ are a unit apart. -/
theorem apart (multiple : (unit : Int) ∣ r) (other : (unit : Int) ∣ s) (differ : r ≠ s) :
    unit ≤ (r - s).natAbs := by
  have factor : unit ∣ (r - s).natAbs := Int.ofNat_dvd_left.mp (Int.dvd_sub multiple other)
  have positive : 0 < (r - s).natAbs := by omega
  exact Nat.le_of_dvd positive factor

/-- **There is one way to round.** -/
theorem unique (h : IsRounded unit v r) (h' : IsRounded unit v s) : r = s := by
  by_contra differ
  have far := apart h.multiple h'.multiple differ
  have near := h.near
  have near' := h'.near
  -- Both are half a unit away, so each is as far from zero as the other.
  have even : (s - v).natAbs = (r - v).natAbs := by omega
  have least := h.away s h'.multiple even
  have most := h'.away r h.multiple even.symm
  -- So they lie on both sides of zero, each half a unit away from it.
  have middle : v = 0 := by omega
  have reach : r ≠ 0 := by omega
  have step := apart h.multiple (Int.dvd_zero _) reach
  omega

/-- Rounding is the same on both sides of zero. -/
theorem neg (h : IsRounded unit v r) : IsRounded unit (-v) (-r) where
  multiple := Int.dvd_neg.mpr h.multiple
  near := by
    have near := h.near
    omega
  away := by
    intro m multiple even
    have opposite := h.away (-m) (Int.dvd_neg.mpr multiple) (by omega)
    omega

/-- A multiple is rounded to itself. -/
theorem self (multiple : (unit : Int) ∣ r) : IsRounded unit r r where
  multiple := multiple
  near := by omega
  away := by
    intro m _ even
    omega

/-- **Rounding keeps the order.** -/
theorem mono (h : IsRounded unit v r) (h' : IsRounded unit w s) (order : v ≤ w) : r ≤ s := by
  by_contra above
  have far := apart h.multiple h'.multiple (by omega)
  have near := h.near
  have near' := h'.near
  have same : v = w := by omega
  subst same
  have one := h.unique h'
  omega

end IsRounded

/-! ### The multiple -/

/-- An integer rounded to a multiple of a unit, half away from zero. -/
def toMultiple (unit : Nat) (v : Int) : Int :=
  let r : Nat := roundHalfUp v.natAbs unit * unit
  if v < 0 then -r else r

/-- The multiple lies less than half a unit below the number and at most half a unit above it. -/
theorem roundHalfUp_bounds (n : Nat) {unit : Nat} (positive : 0 < unit) :
    2 * n < 2 * (roundHalfUp n unit * unit) + unit ∧
      2 * (roundHalfUp n unit * unit) ≤ 2 * n + unit := by
  have parts := Nat.div_add_mod (2 * n + unit) (2 * unit)
  have rest := Nat.mod_lt (2 * n + unit) (show 0 < 2 * unit by omega)
  have product : 2 * unit * roundHalfUp n unit = 2 * (roundHalfUp n unit * unit) := by
    rw [Nat.mul_assoc, Nat.mul_comm unit]
  rw [← roundHalfUp, product] at parts
  omega

theorem isRounded_roundHalfUp (n : Nat) {unit : Nat} (positive : 0 < unit) :
    IsRounded unit n (roundHalfUp n unit * unit : Nat) where
  multiple := Int.natCast_dvd_natCast.mpr (Nat.dvd_mul_left _ _)
  near := by
    obtain ⟨below, above⟩ := roundHalfUp_bounds n positive
    omega
  away := by
    obtain ⟨below, above⟩ := roundHalfUp_bounds n positive
    intro m multiple even
    by_contra farther
    -- A multiple farther from zero is a unit above, but the two are less than a unit apart.
    have differ : m ≠ (roundHalfUp n unit * unit : Nat) := by omega
    have far := IsRounded.apart multiple
      (Int.natCast_dvd_natCast.mpr (Nat.dvd_mul_left unit (roundHalfUp n unit))) differ
    omega

/-- **The multiple is the one that is described.** -/
theorem isRounded_toMultiple {unit : Nat} (positive : 0 < unit) (v : Int) :
    IsRounded unit v (toMultiple unit v) := by
  have rounded := isRounded_roundHalfUp v.natAbs positive
  unfold toMultiple
  dsimp only
  split
  · next negative =>
    have opposite : -(v.natAbs : Int) = v := by omega
    rw [← opposite, Int.natAbs_neg, Int.natAbs_natCast]
    exact rounded.neg
  · next proper =>
    have same : (v.natAbs : Int) = v := by omega
    rw [← same, Int.natAbs_natCast]
    exact rounded

example : toMultiple 100 (-250) = -300 ∧ toMultiple 1000 499 = 0 := by decide

theorem roundHalfUp_mul (n : Nat) {unit : Nat} (positive : 0 < unit) :
    roundHalfUp (n * unit) unit = n := by
  have itself : IsRounded unit (n * unit : Nat) (n * unit : Nat) :=
    .self (Int.natCast_dvd_natCast.mpr (Nat.dvd_mul_left unit n))
  have same := (isRounded_roundHalfUp (n * unit) positive).unique itself
  exact Nat.eq_of_mul_eq_mul_right positive (Int.ofNat_inj.mp same)

theorem roundHalfUp_le (n : Nat) {unit : Nat} (positive : 0 < unit) : roundHalfUp n unit ≤ n := by
  obtain ⟨-, above⟩ := roundHalfUp_bounds n positive
  by_contra larger
  have more : (n + 1) * unit ≤ roundHalfUp n unit * unit := Nat.mul_le_mul_right unit (by omega)
  have least : n ≤ n * unit := Nat.le_mul_of_pos_right n positive
  rw [Nat.succ_mul] at more
  omega

/-- A multiple is not more than twice the number. -/
theorem roundHalfUp_mul_le (n : Nat) {unit : Nat} (positive : 0 < unit) :
    roundHalfUp n unit * unit ≤ 2 * n := by
  obtain ⟨-, above⟩ := roundHalfUp_bounds n positive
  rcases Nat.eq_zero_or_pos (roundHalfUp n unit) with none | some
  · rw [none, Nat.zero_mul]
    exact Nat.zero_le _
  · have one : unit ≤ roundHalfUp n unit * unit := Nat.le_mul_of_pos_left unit some
    omega

theorem natAbs_toMultiple (unit : Nat) (v : Int) :
    (toMultiple unit v).natAbs = roundHalfUp v.natAbs unit * unit := by
  unfold toMultiple
  dsimp only
  split <;> omega

/-! ### Decimals of 28 digits -/

/-- A decimal with a place of tens is rounded, if neither the digits before that place nor those of
the multiple are too many. -/
theorem quantize?_place {v : Int} {k : Nat} (reach : (k : Int) ≤ largestPlace)
    (few : v.natAbs < tenTo (precision + k))
    (fits : roundHalfUp v.natAbs (tenTo k) < tenTo precision) :
    (Decimal.ofInt v).quantize? k = some ⟨v < 0, roundHalfUp v.natAbs (tenTo k), k⟩ := by
  have place : ¬((k : Int) < smallestPlace ∨ largestPlace < k) := by
    rw [smallestPlace]
    omega
  have unit : overPowTen v.natAbs 1 k = (v.natAbs, tenTo k) := by
    rw [overPowTen, if_pos (by omega), Int.toNat_natCast, Nat.one_mul]
  have digits : digitCount v.natAbs ≤ precision + k :=
    (digitCount_le_iff (by rw [precision]; omega)).mpr few
  have short : digitCount (roundHalfUp v.natAbs (tenTo k)) ≤ precision :=
    (digitCount_le_iff (by decide)).mpr fits
  unfold Decimal.quantize? Decimal.ofInt
  dsimp only
  rw [if_neg place]
  split
  · next zero =>
    have none : roundHalfUp 0 (tenTo k) = 0 :=
      Nat.eq_zero_of_le_zero (roundHalfUp_le 0 (tenTo_pos k))
    rw [zero, none]
  · rw [Int.sub_zero, unit]
    dsimp only
    rw [if_neg (by omega), if_neg (by omega)]

theorem toInt_place (v : Int) (k : Nat) :
    (Decimal.mk (v < 0) (roundHalfUp v.natAbs (tenTo k)) k).toInt = toMultiple (tenTo k) v := by
  have magnitude : (if roundHalfUp v.natAbs (tenTo k) = 0 then 0
      else if (0 : Int) ≤ k then roundHalfUp v.natAbs (tenTo k) * tenTo (k : Int).toNat
      else roundHalfUp v.natAbs (tenTo k) / tenTo (-(k : Int)).toNat) =
        roundHalfUp v.natAbs (tenTo k) * tenTo k := by
    split
    · next none => rw [none, Nat.zero_mul]
    · rw [if_pos (by omega), Int.toNat_natCast]
  simp only [Decimal.toInt, magnitude, toMultiple, decide_eq_true_eq]

end Number

namespace Filter

open Number

/-- **An integer that fits is rounded to the multiple.** -/
theorem roundTo_place {v : Int} {k : Nat} (reach : (k : Int) ≤ largestPlace)
    (short : isLong v = false) (few : v.natAbs < tenTo (precision + k))
    (fits : roundHalfUp v.natAbs (tenTo k) < tenTo precision) :
    roundTo (-k) (.int v) = .ok (.int (toMultiple (tenTo k) v)) := by
  have place : placeOf (-k) = .power k := by
    have most : (k : Int) ≤ 999999 := reach
    rw [placeOf, if_neg (by omega), if_neg (by rw [Int.neg_neg]; omega), Int.neg_neg, smallestPlace]
    congr 1
    omega
  have quantized := quantize?_place reach few fits
  have sought : decimal? (.int v) = some (Decimal.ofInt v) := rfl
  have small : (Value.int v).hasLong = false := short
  unfold roundTo
  rw [sought]
  dsimp only
  rw [small, place]
  dsimp only
  rw [quantized]
  dsimp only
  rw [toInt_place, if_neg Bool.false_ne_true, if_pos (by omega)]

/-- An integer of at most 28 digits is rounded. -/
theorem roundTo_of_lt {v : Int} {k : Nat} (reach : (k : Int) ≤ largestPlace)
    (small : v.natAbs < tenTo precision) :
    roundTo (-k) (.int v) = .ok (.int (toMultiple (tenTo k) v)) := by
  have short : isLong v = false := by
    rw [← Bool.not_eq_true, isLong_iff, Nat.not_le]
    exact Nat.lt_of_lt_of_le small (tenTo_le (by decide))
  have few : v.natAbs < tenTo (precision + k) :=
    Nat.lt_of_lt_of_le small (tenTo_le (Nat.le_add_right _ _))
  have fits : roundHalfUp v.natAbs (tenTo k) < tenTo precision :=
    Nat.lt_of_le_of_lt (roundHalfUp_le _ (tenTo_pos k)) small
  exact roundTo_place reach short few fits

/-- What such an integer was rounded to is rounded to itself, also if it has a digit more. -/
theorem roundTo_multiple {v : Int} {k : Nat} (reach : (k : Int) ≤ largestPlace)
    (small : v.natAbs < tenTo precision) :
    roundTo (-k) (.int (toMultiple (tenTo k) v)) = .ok (.int (toMultiple (tenTo k) v)) := by
  have positive := tenTo_pos k
  have coefficient : roundHalfUp v.natAbs (tenTo k) < tenTo precision :=
    Nat.lt_of_le_of_lt (roundHalfUp_le _ positive) small
  have short : isLong (toMultiple (tenTo k) v) = false := by
    rw [← Bool.not_eq_true, isLong_iff, Nat.not_le, natAbs_toMultiple]
    calc roundHalfUp v.natAbs (tenTo k) * tenTo k ≤ 2 * v.natAbs := roundHalfUp_mul_le _ positive
      _ < 10 * tenTo precision := by omega
      _ = tenTo (precision + 1) := (tenTo_succ precision).symm
      _ ≤ tenTo digitLimit := tenTo_le (by decide)
  have few : (toMultiple (tenTo k) v).natAbs < tenTo (precision + k) :=
    calc (toMultiple (tenTo k) v).natAbs = roundHalfUp v.natAbs (tenTo k) * tenTo k :=
          natAbs_toMultiple _ v
      _ < tenTo precision * tenTo k := Nat.mul_lt_mul_of_pos_right coefficient positive
      _ = tenTo (precision + k) := (Nat.pow_add 10 precision k).symm
  have fits : roundHalfUp (toMultiple (tenTo k) v).natAbs (tenTo k) < tenTo precision := by
    rw [natAbs_toMultiple, roundHalfUp_mul _ positive]
    exact coefficient
  have again := (isRounded_toMultiple positive (toMultiple (tenTo k) v)).unique
    (.self (isRounded_toMultiple positive v).multiple)
  rw [roundTo_place reach short few fits, again]

/-- A count of digits with a minus sign is read as that many places in front of the point. -/
theorem decimals?_minus {k : Nat} (reach : (k : Int) ≤ largestPlace) :
    decimals? (some (String.ofList ('-' :: ofNat k))) = some (-(k : Int)) := by
  have short : digitCount k ≤ digitLimit := by
    rw [digitCount_le_iff (by decide)]
    calc k < tenTo 6 := by
          rw [largestPlace] at reach
          exact Nat.lt_of_le_of_lt (Int.ofNat_le.mp reach) (by decide)
      _ ≤ tenTo digitLimit := tenTo_le (by decide)
  have proper : Text.allBlank ('-' :: ofNat k) = false := by
    rw [Text.allBlank, List.all_cons, show Text.isBlank '-' = false by decide, Bool.false_and]
  rw [decimals?, String.toList_ofList, proper, if_neg Bool.false_ne_true, parse?_minus,
    if_pos short]

/-- **Integers are rounded half away from zero.** An integer below `10 ^ 28` on either side of zero
that is rounded to a place of up to 999999 zeros becomes the multiple of that power of ten that is
nearest to it, from halfway the one farther from zero. So its negative becomes the negative of
that, the multiple stays as it is, and the order of two integers is kept. The count of zeros behind
a minus sign is an argument that asks for the place. -/
theorem round_half_away (world : Surroundings) {k : Nat} (reach : k ≤ 999999) :
    decimals? (some (String.ofList ('-' :: ofNat k))) = some (-(k : Int)) ∧
    ∀ argument, decimals? argument = some (-(k : Int)) →
      (∀ v : Int, v.natAbs < 10 ^ 28 → ∃ r : Int,
        Filter.apply (builtins world) (.int v) ⟨"round", argument⟩ = .ok (.int r) ∧
        IsRounded (10 ^ k) v r ∧
        Filter.apply (builtins world) (.int (-v)) ⟨"round", argument⟩ = .ok (.int (-r)) ∧
        Filter.apply (builtins world) (.int r) ⟨"round", argument⟩ = .ok (.int r)) ∧
      ∀ v w r s : Int, v.natAbs < 10 ^ 28 → w.natAbs < 10 ^ 28 → v ≤ w →
        Filter.apply (builtins world) (.int v) ⟨"round", argument⟩ = .ok (.int r) →
        Filter.apply (builtins world) (.int w) ⟨"round", argument⟩ = .ok (.int s) → r ≤ s := by
  have place : (k : Int) ≤ largestPlace := Int.ofNat_le.mpr reach
  refine ⟨decimals?_minus place, fun argument asked => ?_⟩
  have filter (v : Int) : Filter.apply (builtins world) (.int v) ⟨"round", argument⟩ =
      roundTo (-k) (.int v) := by
    change round (.int v) argument = _
    rw [round, asked]
  have rounded (v : Int) : IsRounded (10 ^ k) v (toMultiple (tenTo k) v) :=
    isRounded_toMultiple (tenTo_pos k) v
  constructor
  · intro v small
    have negative : roundTo (-k) (.int (-v)) = .ok (.int (-toMultiple (tenTo k) v)) := by
      rw [roundTo_of_lt place (by rwa [Int.natAbs_neg]), (rounded (-v)).unique (rounded v).neg]
    refine ⟨toMultiple (tenTo k) v, ?_, rounded v, ?_, ?_⟩
    · rw [filter, roundTo_of_lt place small]
    · rw [filter, negative]
    · rw [filter, roundTo_multiple place small]
  · intro v w r s small small' order first second
    rw [filter, roundTo_of_lt place small] at first
    rw [filter, roundTo_of_lt place small'] at second
    obtain rfl := Value.int.inj (Except.ok.inj first)
    obtain rfl := Value.int.inj (Except.ok.inj second)
    exact (rounded v).mono (rounded w) order

theorem round_half_away_hundreds :
    decimals? (some "-2") = some (-2) ∧
      Filter.apply (builtins .still) (.int (-250)) ⟨"round", some "-2"⟩ = .ok (.int (-300)) ∧
      IsRounded 100 (-250) (-300) ∧
      Filter.apply (builtins .still) (.int (-249)) ⟨"round", some "-2"⟩ = .ok (.int (-200)) ∧
      (-300 : Int) ≤ -200 := by
  obtain ⟨asked, read⟩ := round_half_away .still (show 2 ≤ 999999 by decide)
  obtain ⟨rounds, keeps⟩ := read _ asked
  have first : Filter.apply (builtins .still) (.int (-250)) ⟨"round", some "-2"⟩ =
      .ok (.int (-300)) := rfl
  have second : Filter.apply (builtins .still) (.int (-249)) ⟨"round", some "-2"⟩ =
      .ok (.int (-200)) := rfl
  obtain ⟨r, made, rounded, -, -⟩ := rounds (-250) (by decide)
  obtain rfl := Value.int.inj (Except.ok.inj (made.symm.trans first))
  have order : (-300 : Int) ≤ -200 :=
    keeps _ _ _ _ (by decide) (by decide) (by decide) first second
  exact ⟨asked, first, rounded, second, order⟩

end Filter
end Stencil
