/-
# Counting seconds

Seconds are counted from the start of the year 1970, and each count within the years of
the calendar is that of a moment at a whole second (`DateTime.ofEpoch?_spec`). The later
one of two such moments has the larger count (`DateTime.clockSeconds_lt`).

The count of a moment is found by way of a number with 53 significant bits. A count that
fits in these bits passes through unchanged, whether the offset of the moment is known
(`DateTime.epochSeconds?_of_universal`) or not (`DateTime.epochSeconds?_of_clock`).

Key definitions: `DateTime.Whole`, `DateTime.fields`.
Key theorems: `Binary64.truncate?_ofInt`, `DateTime.ofEpoch?_spec`,
`DateTime.clockSeconds_lt`, `DateTime.epochSeconds?_of_universal`,
`DateTime.epochSeconds?_of_clock`.
-/
import Stencil.Calendar.DateTime
import Stencil.Proofs.Calendar
import Stencil.Proofs.Extremes

namespace Stencil

/-! ### Integers of few bits -/

namespace Number

theorem fitsBits_of_lt {n : Nat} (few : n < twoTo 53) : FitsBits n :=
  ⟨n, 0, few, (Nat.mul_one n).symm⟩

end Number

namespace Binary64

open Number

/-- What is cut off from a number is its fraction. -/
theorem truncate?_finite (negative : Bool) (m : Nat) (e : Int) :
    (finite negative m e).truncate? =
      let (n, d) := (finite negative m e).ratio
      some (if negative then -((n / d : Nat) : Int) else (n / d : Nat)) := by
  have cut : (if 0 ≤ e then m * twoTo e.toNat else m / twoTo (-e).toNat) =
      (finite negative m e).ratio.1 / (finite negative m e).ratio.2 := by
    rcases Int.lt_trichotomy e 0 with below | rfl | above
    · rw [if_neg (by omega), ratio, overPowTwo, if_pos (by omega), Nat.one_mul]
    · simp [ratio, overPowTwo, twoTo]
    · rw [if_pos (by omega), ratio, overPowTwo, if_neg (by omega), Int.neg_neg, Nat.div_one]
  rw [truncate?]
  dsimp only
  rw [cut]

/-- **An integer of few bits is cut off at itself.** -/
theorem truncate?_ofInt {v : Int} (few : v.natAbs < twoTo 53) : (ofInt v).truncate? = some v := by
  have kept : inBits v.natAbs = v.natAbs := (inBits_eq_self_iff _).mpr (fitsBits_of_lt few)
  have small : v.natAbs < twoTo 1024 := Nat.lt_of_lt_of_le few (twoTo_le (by decide))
  unfold ofInt
  rcases ofRatio_cases (v < 0) v.natAbs with ⟨-, m, e, den, made, -, unit, value⟩ | ⟨beyond, -⟩
  · rw [made, truncate?_finite, value, kept]
    dsimp only
    rw [Nat.mul_div_cancel _ unit]
    simp only [decide_eq_true_eq, Option.some.injEq]
    omega
  · rw [kept] at beyond
    omega

/-- A small integer counted in the smallest units is that number again. -/
theorem scaled_ofInt {v : Int} (few : v.natAbs < twoTo 53) :
    (ofInt v).scaled = v * (twoTo 1074 : Nat) := by
  have small : v.natAbs < twoTo 1024 := Nat.lt_of_lt_of_le few (twoTo_le (by decide))
  have seen : compared v = v := compared_eq_self (fitsBits_of_lt few) small
  have range : (v.natAbs : Int) < bound := Int.ofNat_lt.mpr small
  rcases ofInt_cases v with ⟨negative, m, e, made, units, -⟩ | ⟨-, low⟩ | ⟨-, high⟩
  · rw [made, units, seen]
  · omega
  · omega

/-- **Nothing is lost if a fraction of nothing is added to an integer of few bits.** -/
theorem add_zero_ofInt {v : Int} (few : v.natAbs < twoTo 53) :
    (ofInt v).add (zero false) = ofInt v := by
  have unit : (0 : Int) < (twoTo 1074 : Nat) := Int.natCast_pos.mpr (twoTo_pos 1074)
  have none : (zero false).scaled = 0 := rfl
  have sum : (ofInt v).scaled + (zero false).scaled = v * (twoTo 1074 : Nat) := by
    rw [none, Int.add_zero, scaled_ofInt few]
  have sign : (v * (twoTo 1074 : Nat) < 0) ↔ v < 0 := by
    rw [Int.mul_neg_iff]
    omega
  have size : (v * (twoTo 1074 : Nat)).natAbs = v.natAbs * twoTo 1074 := by
    rw [Int.natAbs_mul, Int.natAbs_natCast]
  rw [add, sum, size, decide_eq_decide.mpr sign, ofRatio_widened _ _ (twoTo_pos 1074)]
  rfl

end Binary64

namespace DateTime

open Calendar Number

/-! ### Moments at whole seconds -/

/-- A moment of the calendar at a whole second. -/
structure Whole (t : DateTime) : Prop where
  date : t.date.Valid
  hour : t.hour < 24
  minute : t.minute < 60
  second : t.second < 60
  microsecond : t.microsecond = 0

theorem Whole.secondOfDay_lt {t : DateTime} (whole : t.Whole) : t.secondOfDay < 86400 := by
  obtain ⟨-, hour, minute, second, -⟩ := whole
  unfold secondOfDay
  omega

/-- **Each count within the calendar is that of a moment.** -/
theorem ofEpoch?_spec {seconds : Int} (first : (1 - epochDay) * 86400 ≤ seconds)
    (last : seconds < (Date.lastDayNumber + 1 - epochDay) * 86400) :
    ∃ t, ofEpoch? seconds 0 = some t ∧ t.Whole ∧ t.offset = some 0 ∧ t.clockSeconds = seconds := by
  unfold epochDay at first last
  have within : ¬((seconds + epochDay * 86400) / 86400 < 1 ∨
      (Date.lastDayNumber : Int) < (seconds + epochDay * 86400) / 86400) := by
    unfold epochDay
    omega
  obtain ⟨day, number⟩ := Int.eq_ofNat_of_zero_le
    (show 0 ≤ (seconds + epochDay * 86400) / 86400 by omega)
  have least : 1 ≤ day := by omega
  have most : day ≤ Date.lastDayNumber := by omega
  obtain ⟨date, same⟩ := Date.ofDayNumber_spec least most
  refine ⟨_, if_neg within, ?_, rfl, ?_⟩
  · rw [number, Int.toNat_natCast]
    exact ⟨date, by dsimp only; omega, Nat.mod_lt _ (by decide), Nat.mod_lt _ (by decide), rfl⟩
  · unfold clockSeconds secondOfDay
    dsimp only
    rw [number, Int.toNat_natCast, same]
    unfold epochDay at number ⊢
    omega

/-- The parts of a moment, the largest first. -/
def fields (t : DateTime) : List Nat :=
  [t.date.year, t.date.month, t.date.day, t.hour, t.minute, t.second]

theorem fields_lt {a b : DateTime} : a.fields < b.fields ↔
    a.date.year < b.date.year ∨ a.date.year = b.date.year ∧
      (a.date.month < b.date.month ∨ a.date.month = b.date.month ∧
        (a.date.day < b.date.day ∨ a.date.day = b.date.day ∧
          (a.hour < b.hour ∨ a.hour = b.hour ∧
            (a.minute < b.minute ∨ a.minute = b.minute ∧ a.second < b.second)))) := by
  simp [fields, List.cons_lt_cons_iff]

/-- **Moments are counted in the order of their parts.** -/
theorem clockSeconds_lt {a b : DateTime} (whole : a.Whole) (whole' : b.Whole)
    (earlier : a.fields < b.fields) : a.clockSeconds < b.clockSeconds := by
  have short := whole.secondOfDay_lt
  by_cases same : a.date = b.date
  · have day : a.secondOfDay < b.secondOfDay := by
      have earlier := fields_lt.mp earlier
      obtain ⟨-, -, minute, second, -⟩ := whole
      obtain ⟨-, -, minute', second', -⟩ := whole'
      rw [same] at earlier
      unfold secondOfDay
      omega
    unfold clockSeconds
    rw [same]
    omega
  · have before : a.date.parts < b.date.parts := by
      have earlier := fields_lt.mp earlier
      have differ : a.date.parts ≠ b.date.parts := fun parts => same (Date.parts_injective parts)
      simp only [Date.parts, ne_eq, List.cons.injEq, and_true] at differ
      rw [Date.parts_lt]
      omega
    have days := Date.dayNumber_lt whole.date whole'.date before
    unfold clockSeconds
    omega

/-- The parts of a moment at a whole second say which second it is. -/
theorem clockSeconds_of_fields {a b : DateTime} (same : a.fields = b.fields) :
    a.clockSeconds = b.clockSeconds := by
  obtain ⟨⟨year, month, day⟩, hour, minute, second, _, _⟩ := a
  obtain ⟨⟨year', month', day'⟩, hour', minute', second', _, _⟩ := b
  simp only [fields, List.cons.injEq, and_true] at same
  obtain ⟨rfl, rfl, rfl, rfl, rfl, rfl⟩ := same
  rfl

/-- **The parts of moments are in the order of their counts.** -/
theorem fields_lt_of_clockSeconds {a b : DateTime} (whole : a.Whole) (whole' : b.Whole)
    (earlier : a.clockSeconds < b.clockSeconds) : a.fields < b.fields := by
  apply Decidable.byContradiction
  intro other
  rcases List.le_iff_lt_or_eq.mp (List.not_lt.mp other) with later | same
  · have back := clockSeconds_lt whole' whole later
    omega
  · have equal := clockSeconds_of_fields same
    omega

/-! ### Counts through a number of 53 bits -/

theorem epochSeconds?_of_universal {t : DateTime} (offset : t.offset = some 0)
    (whole : t.microsecond = 0) (few : t.clockSeconds.natAbs < twoTo 53) :
    t.epochSeconds? = some t.clockSeconds := by
  have micros : t.clockSeconds * 1000000 + t.microsecond - 0 = t.clockSeconds * 1000000 := by
    rw [whole]
    omega
  have size : (t.clockSeconds * 1000000).natAbs = t.clockSeconds.natAbs * 1000000 := by omega
  have sign : (t.clockSeconds * 1000000 < 0) ↔ t.clockSeconds < 0 := by omega
  simp only [epochSeconds?, offset]
  rw [micros, size, decide_eq_decide.mpr sign, Binary64.ofRatio_widened _ _ (by decide)]
  exact Binary64.truncate?_ofInt few

theorem epochSeconds?_of_clock {t : DateTime} (offset : t.offset = none)
    (whole : t.microsecond = 0) (later : 1 < t.date.dayNumber)
    (few : t.clockSeconds.natAbs < twoTo 53) : t.epochSeconds? = some t.clockSeconds := by
  have fraction : Binary64.ofRatio false t.microsecond 1000000 = Binary64.zero false := by
    rw [whole]
    rfl
  simp only [epochSeconds?, offset, if_neg (Nat.not_le_of_lt later)]
  rw [fraction, Binary64.add_zero_ofInt few]
  exact Binary64.truncate?_ofInt few

end DateTime

end Stencil
