/-
# Integers in 53 bits

An integer becomes a number with 53 significant bits by being rounded to a
multiple of `lastPlace`, the value of the last bit that is kept. The result is a
nearest one of all integers with at most 53 significant bits, and it is the
integer itself just if that has no more.

A quotient that has been widened by a common factor is rounded as the quotient
itself (`ofRatio_widened`): the factor moves the first guess of the exponent by at
most one, and `exponentOf` looks at the quotient to correct it. So it makes no
difference whether an integer is rounded or a decimal of the same value.

Key definitions: `Number.lastPlace`, `Number.inBits`, `Number.FitsBits`.
Key theorems: `Number.inBits_nearest`, `Number.inBits_eq_self_iff`,
`Binary64.ofRatio_widened`, `Binary64.ofRatio_cases`.
-/
import Mathlib.Data.Nat.Dist
import Stencil.Number.Binary64

namespace Stencil
namespace Number

theorem twoTo_pos (k : Nat) : 0 < twoTo k :=
  Nat.two_pow_pos k

theorem twoTo_add (j k : Nat) : twoTo (j + k) = twoTo j * twoTo k :=
  Nat.pow_add 2 j k

theorem twoTo_le {j k : Nat} (h : j ≤ k) : twoTo j ≤ twoTo k :=
  Nat.pow_le_pow_right (by decide) h

/-! ### The nearest multiple -/

/-- A quotient is rounded down, if at most half a unit is missing, or up. -/
theorem roundHalfEven_cases (num den : Nat) :
    (roundHalfEven num den = num / den ∧ 2 * (num % den) ≤ den) ∨
      (roundHalfEven num den = num / den + 1 ∧ den ≤ 2 * (num % den)) := by
  unfold roundHalfEven
  dsimp only
  split
  · exact .inl ⟨rfl, by omega⟩
  · split
    · exact .inr ⟨rfl, by omega⟩
    · split
      · exact .inl ⟨rfl, by omega⟩
      · exact .inr ⟨rfl, by omega⟩

/-- A common factor of a quotient makes no difference. -/
theorem roundHalfEven_widened (num den : Nat) {t : Nat} (positive : 0 < t) :
    roundHalfEven (num * t) (den * t) = roundHalfEven num den := by
  have twice : 2 * (num % den * t) = 2 * (num % den) * t := (Nat.mul_assoc 2 _ t).symm
  have below : 2 * (num % den) * t < den * t ↔ 2 * (num % den) < den := Nat.mul_lt_mul_right positive
  have above : den * t < 2 * (num % den) * t ↔ den < 2 * (num % den) := Nat.mul_lt_mul_right positive
  simp only [roundHalfEven, Nat.mul_div_mul_right _ _ positive, Nat.mul_mod_mul_right, twice, below,
    above]

@[simp] theorem roundHalfEven_one (num : Nat) : roundHalfEven num 1 = num := by
  simp [roundHalfEven, Nat.mod_one]

/-- A multiple is not changed. -/
theorem roundHalfEven_mul (n : Nat) {den : Nat} (positive : 0 < den) :
    roundHalfEven (n * den) den = n := by
  simpa using roundHalfEven_widened n 1 positive

/-- Rounding gives a nearest multiple. -/
theorem roundHalfEven_nearest (num k : Nat) {den : Nat} (positive : 0 < den) :
    Nat.dist num (roundHalfEven num den * den) ≤ Nat.dist num (k * den) := by
  have parts : num / den * den + num % den = num := Nat.div_add_mod' num den
  have rest := Nat.mod_lt num positive
  have side : k * den ≤ num / den * den ∨ num / den * den + den ≤ k * den := by
    rcases Nat.lt_or_ge (num / den) k with above | below
    · right
      simpa [Nat.succ_mul] using Nat.mul_le_mul_right den above
    · exact .inl (Nat.mul_le_mul_right den below)
  unfold Nat.dist
  rcases roundHalfEven_cases num den with ⟨down, half⟩ | ⟨up, half⟩
  · rw [down]
    omega
  · rw [up, Nat.succ_mul]
    omega

/-! ### 53 significant bits -/

/-- The value of the last bit that is kept of a number. -/
def lastPlace (n : Nat) : Nat :=
  twoTo (Nat.log2 n - 52)

/-- A number rounded to 53 significant bits. -/
def inBits (n : Nat) : Nat :=
  roundHalfEven n (lastPlace n) * lastPlace n

/-- At most 53 bits of a number are significant; zeros follow them. -/
def FitsBits (n : Nat) : Prop :=
  ∃ m k, m < twoTo 53 ∧ n = m * twoTo k

theorem lastPlace_pos (n : Nat) : 0 < lastPlace n :=
  twoTo_pos _

theorem lt_lastPlace (n : Nat) : n < twoTo 53 * lastPlace n :=
  calc n < twoTo (Nat.log2 n + 1) := Nat.lt_log2_self
    _ ≤ twoTo (53 + (Nat.log2 n - 52)) := twoTo_le (by omega)
    _ = twoTo 53 * lastPlace n := twoTo_add _ _

/-- A number whose bits after the first 53 are zeros is a multiple of the last place. -/
theorem lastPlace_dvd {n : Nat} (fits : FitsBits n) : lastPlace n ∣ n := by
  obtain ⟨m, k, small, rfl⟩ := fits
  rcases Nat.eq_zero_or_pos (m * twoTo k) with zero | positive
  · simp [zero]
  · have length : Nat.log2 (m * twoTo k) < 53 + k := by
      rw [Nat.log2_lt positive.ne', Nat.pow_add]
      exact Nat.mul_lt_mul_of_pos_right small (twoTo_pos k)
    exact (Nat.pow_dvd_pow 2 (by omega)).trans (Nat.dvd_mul_left _ _)

theorem inBits_of_dvd {n : Nat} (h : lastPlace n ∣ n) : inBits n = n := by
  have positive := lastPlace_pos n
  unfold inBits
  generalize lastPlace n = unit at h positive
  obtain ⟨q, rfl⟩ := h
  rw [Nat.mul_comm unit, roundHalfEven_mul q positive]

theorem inBits_pos {n : Nat} (positive : 0 < n) : 0 < inBits n := by
  have below : lastPlace n ≤ n :=
    calc lastPlace n ≤ twoTo (Nat.log2 n) := twoTo_le (Nat.sub_le _ _)
      _ ≤ n := Nat.log2_self_le positive.ne'
  have quotient : 0 < n / lastPlace n := Nat.div_pos below (lastPlace_pos n)
  refine Nat.mul_pos ?_ (lastPlace_pos n)
  rcases roundHalfEven_cases n (lastPlace n) with ⟨rounded, -⟩ | ⟨rounded, -⟩ <;> omega

theorem fitsBits_inBits (n : Nat) : FitsBits (inBits n) := by
  have quotient : n / lastPlace n < twoTo 53 :=
    (Nat.div_lt_iff_lt_mul (lastPlace_pos n)).mpr (lt_lastPlace n)
  have most : roundHalfEven n (lastPlace n) ≤ twoTo 53 := by
    rcases roundHalfEven_cases n (lastPlace n) with ⟨rounded, -⟩ | ⟨rounded, -⟩ <;> omega
  rcases Nat.lt_or_eq_of_le most with small | carried
  · exact ⟨_, _, small, rfl⟩
  · refine ⟨twoTo 52, Nat.log2 n - 52 + 1, by decide, ?_⟩
    rw [inBits, carried, lastPlace, show twoTo 53 = twoTo 52 * twoTo 1 from rfl, Nat.mul_assoc,
      ← twoTo_add, Nat.add_comm]

/-- **An integer stays as it is just if it has at most 53 significant bits.** -/
theorem inBits_eq_self_iff (n : Nat) : inBits n = n ↔ FitsBits n :=
  ⟨fun same => same ▸ fitsBits_inBits n, fun fits => inBits_of_dvd (lastPlace_dvd fits)⟩

/-- **Rounding gives a nearest one of all integers with at most 53 significant bits.** -/
theorem inBits_nearest (n : Nat) {m : Nat} (fits : FitsBits m) :
    Nat.dist n (inBits n) ≤ Nat.dist n m := by
  by_cases multiple : lastPlace n ∣ m
  · obtain ⟨k, rfl⟩ := multiple
    rw [Nat.mul_comm]
    exact roundHalfEven_nearest n k (lastPlace_pos n)
  · -- All such integers that are no multiples are smaller than the power of two below `n`.
    obtain ⟨c, k, small, rfl⟩ := fits
    have finer : k < Nat.log2 n - 52 := by
      by_contra coarse
      exact multiple (Dvd.dvd.mul_left (Nat.pow_dvd_pow 2 (Nat.le_of_not_lt coarse)) c)
    have long : n ≠ 0 := by
      rintro rfl
      simp at finer
    have power : twoTo 52 * lastPlace n = twoTo (Nat.log2 n) := by
      rw [lastPlace, ← twoTo_add]
      congr 1
      omega
    have below : c * twoTo k ≤ twoTo (Nat.log2 n) :=
      calc c * twoTo k ≤ twoTo 53 * twoTo k := Nat.mul_le_mul_right _ small.le
        _ = twoTo (53 + k) := (twoTo_add _ _).symm
        _ ≤ twoTo (Nat.log2 n) := twoTo_le (by omega)
    have above : twoTo (Nat.log2 n) ≤ n := Nat.log2_self_le long
    have nearest := roundHalfEven_nearest n (twoTo 52) (lastPlace_pos n)
    rw [power] at nearest
    unfold inBits
    unfold Nat.dist at nearest ⊢
    omega

/-! ### Widened quotients -/

theorem overPowTwo_widened (num den t : Nat) (e : Int) :
    overPowTwo (num * t) (den * t) e =
      ((overPowTwo num den e).1 * t, (overPowTwo num den e).2 * t) := by
  unfold overPowTwo
  split <;> simp only [Nat.mul_right_comm]

/-- How an integer over a power of two compares with a power of two. -/
theorem twoTo_le_overPowTwo {n : Nat} (positive : 0 < n) (k : Nat) (e : Int) :
    twoTo k ≤ (overPowTwo n 1 e).1 / (overPowTwo n 1 e).2 ↔ k + e ≤ Nat.log2 n := by
  have bits (j : Nat) : twoTo j ≤ n ↔ j ≤ Nat.log2 n := (Nat.le_log2 positive.ne').symm
  rcases Int.lt_or_le e 0 with negative | whole
  · obtain ⟨j, rfl⟩ := Int.exists_eq_neg_ofNat negative.le
    rw [overPowTwo, if_neg (by omega), Int.neg_neg, Int.toNat_natCast, Nat.div_one]
    rcases Nat.lt_or_ge k j with less | more
    · have least : twoTo k ≤ n * twoTo j :=
        (twoTo_le less.le).trans (Nat.le_mul_of_pos_left _ positive)
      exact iff_of_true least (by omega)
    · obtain ⟨i, rfl⟩ := Nat.exists_eq_add_of_le' more
      rw [twoTo_add, Nat.mul_le_mul_right_iff (twoTo_pos j), bits]
      omega
  · obtain ⟨j, rfl⟩ := Int.eq_ofNat_of_zero_le whole
    rw [overPowTwo, if_pos whole, Int.toNat_natCast, Nat.one_mul,
      Nat.le_div_iff_mul_le (twoTo_pos j), ← twoTo_add, bits]
    omega

theorem log2_mul_cases {n t : Nat} (hn : 0 < n) (ht : 0 < t) :
    Nat.log2 (n * t) = Nat.log2 n + Nat.log2 t ∨ Nat.log2 (n * t) = Nat.log2 n + Nat.log2 t + 1 := by
  have product : n * t ≠ 0 := (Nat.mul_pos hn ht).ne'
  have least : Nat.log2 n + Nat.log2 t ≤ Nat.log2 (n * t) := by
    rw [Nat.le_log2 product, Nat.pow_add]
    exact Nat.mul_le_mul (Nat.log2_self_le hn.ne') (Nat.log2_self_le ht.ne')
  have most : Nat.log2 (n * t) < Nat.log2 n + 1 + (Nat.log2 t + 1) := by
    rw [Nat.log2_lt product, Nat.pow_add]
    exact Nat.mul_lt_mul'' Nat.lt_log2_self Nat.lt_log2_self
  omega

end Number

namespace Binary64

open Number

/-- Whatever an integer is widened by, its exponent is that of the last of its first 53 bits. -/
theorem exponentOf_widened {n t : Nat} (hn : 0 < n) (ht : 0 < t) :
    exponentOf (n * t) t = Nat.log2 n - 52 := by
  have guess := log2_mul_cases hn ht
  have widened := overPowTwo_widened n 1 t (Nat.log2 (n * t) - Nat.log2 t - 53)
  have corrected := twoTo_le_overPowTwo hn 53 (Nat.log2 (n * t) - Nat.log2 t - 53)
  rw [Nat.one_mul] at widened
  simp only [exponentOf, widened, Nat.mul_div_mul_right _ _ ht, corrected]
  split <;> omega

/-- **A common factor of an integral quotient makes no difference.** -/
theorem ofRatio_widened (negative : Bool) (n : Nat) {t : Nat} (ht : 0 < t) :
    ofRatio negative (n * t) t = ofRatio negative n 1 := by
  rcases Nat.eq_zero_or_pos n with rfl | hn
  · simp [ofRatio]
  · have plain : exponentOf n 1 = Nat.log2 n - 52 := by
      simpa using exponentOf_widened hn Nat.one_pos
    have widened := overPowTwo_widened n 1 t (Nat.log2 n - 52)
    rw [Nat.one_mul] at widened
    simp only [ofRatio, exponentOf_widened hn ht, plain, widened, roundHalfEven_widened _ _ ht,
      Nat.mul_eq_zero, ht.ne', or_false]

/-! ### The value of a rounded integer -/

theorem ratio_of_coarse (negative : Bool) (m k : Nat) :
    (finite negative m k).ratio = (m * twoTo k, 1) := by
  rw [ratio, overPowTwo]
  cases k with
  | zero => simp [twoTo]
  | succ k => rw [if_neg (by omega), Int.neg_neg, Int.toNat_natCast]

theorem ratio_of_fine (negative : Bool) (m k : Nat) :
    (finite negative m (-(k : Int))).ratio = (m, twoTo k) := by
  rw [ratio, overPowTwo, if_pos (by omega), Int.neg_neg, Int.toNat_natCast, Nat.one_mul]

theorem exponentOf_whole {n : Nat} (positive : 0 < n) : exponentOf n 1 = Nat.log2 n - 52 := by
  simpa using exponentOf_widened positive Nat.one_pos

/-- An integer of at most 52 bits is filled up with zeros. -/
theorem ofRatio_of_short (negative : Bool) {n : Nat} (positive : 0 < n) {k : Nat}
    (short : Nat.log2 n + (k + 1) = 52) :
    ofRatio negative n 1 = finite negative (n * twoTo (k + 1)) (-((k + 1 : Nat) : Int)) := by
  have exponent : exponentOf n 1 = -((k + 1 : Nat) : Int) := by
    rw [exponentOf_whole positive]
    omega
  have filled : n * twoTo (k + 1) < twoTo 53 :=
    calc n * twoTo (k + 1) < twoTo (Nat.log2 n + 1) * twoTo (k + 1) :=
          Nat.mul_lt_mul_of_pos_right Nat.lt_log2_self (twoTo_pos _)
      _ = twoTo 53 := by rw [← twoTo_add]; congr 1; omega
  have quotient : overPowTwo n 1 (-((k + 1 : Nat) : Int)) = (n * twoTo (k + 1), 1) := by
    rw [overPowTwo, if_neg (by omega), Int.neg_neg, Int.toNat_natCast]
  simp only [ofRatio, exponent, quotient, roundHalfEven_one, if_neg positive.ne', if_neg filled.ne]
  exact if_neg (by omega)

/-- A longer integer is rounded to a multiple of its last place; it may gain a bit by that. -/
theorem ofRatio_of_long (negative : Bool) {n k : Nat} (long : Nat.log2 n = 52 + k) :
    ∃ m e : Nat, m * twoTo e = inBits n ∧ twoTo 52 ≤ m ∧ m < twoTo 53 ∧
      ofRatio negative n 1 = if 971 < (e : Int) then infinite negative else finite negative m e := by
  have positive : 0 < n := by
    rcases Nat.eq_zero_or_pos n with rfl | positive
    · rw [Nat.log2_zero] at long
      omega
    · exact positive
  have exponent : exponentOf n 1 = k := by
    rw [exponentOf_whole positive]
    omega
  have place : lastPlace n = twoTo k := by
    rw [lastPlace, long, Nat.add_sub_cancel_left]
  have quotient : overPowTwo n 1 k = (n, twoTo k) := by
    rw [overPowTwo, if_pos (by omega), Int.toNat_natCast, Nat.one_mul]
  unfold inBits
  rw [place]
  by_cases carried : roundHalfEven n (twoTo k) = twoTo 53
  · refine ⟨twoTo 52, k + 1, ?_, Nat.le_refl _, by decide, ?_⟩
    · rw [carried, Nat.add_comm, twoTo_add, ← Nat.mul_assoc]
      rfl
    · simp only [ofRatio, exponent, quotient, if_neg positive.ne', if_pos carried]
      rfl
  · have least : twoTo 52 ≤ n / twoTo k := by
      rw [Nat.le_div_iff_mul_le (twoTo_pos k), ← twoTo_add, ← long]
      exact Nat.log2_self_le positive.ne'
    have most : n / twoTo k < twoTo 53 := by
      rw [Nat.div_lt_iff_lt_mul (twoTo_pos k), ← place]
      exact lt_lastPlace n
    have rounded := roundHalfEven_cases n (twoTo k)
    refine ⟨roundHalfEven n (twoTo k), k, rfl, by omega, by omega, ?_⟩
    simp only [ofRatio, exponent, quotient, if_neg positive.ne', if_neg carried]

/-- An integer becomes its nearest number with 53 significant bits, unless that is out of range. -/
theorem ofRatio_cases (negative : Bool) (n : Nat) :
    (inBits n < twoTo 1024 ∧ ∃ m e den, ofRatio negative n 1 = finite negative m e ∧
        -1074 ≤ e ∧ 0 < den ∧ (finite negative m e).ratio = (inBits n * den, den)) ∨
      (twoTo 1024 ≤ inBits n ∧ ofRatio negative n 1 = infinite negative) := by
  rcases Nat.lt_or_ge (Nat.log2 n) 52 with short | long
  · left
    obtain ⟨k, sum⟩ : ∃ k, Nat.log2 n + (k + 1) = 52 := ⟨51 - Nat.log2 n, by omega⟩
    have kept : inBits n = n := inBits_of_dvd (by
      rw [lastPlace, Nat.sub_eq_zero_of_le short.le]
      exact Nat.one_dvd n)
    have small : n < twoTo 1024 :=
      calc n < twoTo (Nat.log2 n + 1) := Nat.lt_log2_self
        _ ≤ twoTo 1024 := twoTo_le (by omega)
    rw [kept]
    refine ⟨small, ?_⟩
    rcases Nat.eq_zero_or_pos n with rfl | positive
    · have zero : ofRatio negative 0 1 = finite negative 0 (-((1074 : Nat) : Int)) := rfl
      exact ⟨_, _, _, zero, by omega, twoTo_pos _, by rw [ratio_of_fine, Nat.zero_mul]⟩
    · have made := ofRatio_of_short negative positive sum
      exact ⟨_, _, _, made, by omega, twoTo_pos _, ratio_of_fine _ _ _⟩
  · obtain ⟨k, sum⟩ := Nat.exists_eq_add_of_le long
    obtain ⟨m, e, value, least, most, made⟩ := ofRatio_of_long negative sum
    rw [made, ← value]
    by_cases beyond : 971 < (e : Int)
    · right
      rw [if_pos beyond]
      refine ⟨?_, rfl⟩
      calc twoTo 1024 = twoTo 52 * twoTo 972 := twoTo_add 52 972
        _ ≤ m * twoTo e := Nat.mul_le_mul least (twoTo_le (by omega))
    · left
      rw [if_neg beyond]
      refine ⟨?_, m, e, 1, rfl, by omega, Nat.one_pos, ?_⟩
      · calc m * twoTo e < twoTo 53 * twoTo e := Nat.mul_lt_mul_of_pos_right most (twoTo_pos e)
          _ ≤ twoTo 53 * twoTo 971 := Nat.mul_le_mul_left _ (twoTo_le (by omega))
          _ = twoTo 1024 := (twoTo_add 53 971).symm
      · rw [ratio_of_coarse, Nat.mul_one]

/-- **An integer that is in range becomes its nearest number with 53 significant bits.** -/
theorem ratio_of_whole {negative : Bool} {n : Nat}
    (inRange : (ofRatio negative n 1).isFinite = true) :
    (ofRatio negative n 1).isNegative = negative ∧
      ∃ den, 0 < den ∧ (ofRatio negative n 1).ratio = (inBits n * den, den) := by
  rcases ofRatio_cases negative n with ⟨-, m, e, den, made, -, positive, value⟩ | ⟨-, made⟩
  · rw [made]
    exact ⟨rfl, den, positive, value⟩
  · rw [made] at inRange
    cases inRange

end Binary64
end Stencil
