/-
# Integers in groups of three digits

`number_format` rounds an integer to decimals without changing its value, makes a
number with 53 significant bits of it, and writes that number out. A number that
is an integer has nothing but zeros behind its point, so what is written is an
integer with commas: not the given one, but a nearest one of those that fit into 53
significant bits (`Number.inBits`). It is the given one just if that fits.

Whether the integer goes on as an integer (no decimals, or more digits than can be
rounded) or as a decimal makes no difference to the number that it becomes
(`Filter.toFloat_of_roundTo`).

Key definitions: `Number.InThrees`, `Number.IsGrouped`, `Number.nearestInt`.
Key theorems: `Number.grouped_inThrees`, `Number.fixedParts_of_whole`,
`Number.IsGrouped.reads`, `Filter.toFloat_of_roundTo`, `Filter.numberFormat_writes_nearest`.
-/
import Stencil.Filter.Builtin
import Stencil.Proofs.Decimal
import Stencil.Proofs.Significand

namespace Stencil
namespace Number

/-! ### Groups of three -/

/-- Digits with commas between groups of three, which are counted from the right. -/
def InThrees (digits text : List Char) : Prop :=
  ∃ (first : List Char) (groups : List (List Char)),
    digits = first ++ groups.flatten ∧ text = first ++ groups.flatMap (',' :: ·) ∧
      1 ≤ first.length ∧ first.length ≤ 3 ∧ ∀ g ∈ groups, g.length = 3

theorem grouped_inThrees {ds : List Char} (proper : ds ≠ []) : InThrees ds (grouped ds) := by
  induction ds with
  | nil => exact absurd rfl proper
  | cons c ds ih =>
    by_cases last : ds = []
    · subst last
      exact ⟨[c], [], rfl, rfl, Nat.le_refl 1, by simp, by simp⟩
    obtain ⟨first, groups, digits, text, least, most, threes⟩ := ih last
    have length : ds.length = first.length + 3 * groups.length := by
      rw [digits, List.length_append, List.length_flatten, List.map_congr_left threes,
        List.map_const', List.sum_replicate_nat, Nat.mul_comm]
    rw [grouped]
    by_cases full : ds.length % 3 = 0
    · -- The first group is complete, so the digit in front of it stands alone.
      rw [if_pos ⟨full, last⟩, text]
      refine ⟨[c], first :: groups, by rw [digits]; rfl, rfl, Nat.le_refl 1, by simp, ?_⟩
      exact List.forall_mem_cons.mpr ⟨by omega, threes⟩
    · rw [if_neg fun h => full h.1, text]
      refine ⟨c :: first, groups, by rw [digits]; rfl, rfl, ?_, ?_, threes⟩
      · rw [List.length_cons]; omega
      · rw [List.length_cons]; omega

/-- Without the commas there are the digits. -/
theorem InThrees.digits_of_filter {digits text : List Char} (h : InThrees digits text)
    (plain : ∀ c ∈ digits, c ≠ ',') : text.filter (· ≠ ',') = digits := by
  obtain ⟨first, groups, rfl, rfl, -, -, -⟩ := h
  have whole : (first ++ groups.flatten).filter (· ≠ ',') = first ++ groups.flatten :=
    List.filter_eq_self.mpr fun c hc => decide_eq_true (plain c hc)
  rw [← whole, List.filter_append, List.filter_append]
  congr 1
  clear whole plain
  induction groups with
  | nil => rfl
  | cons g groups ih =>
    rw [List.flatMap_cons, List.flatten_cons, List.filter_append, List.filter_append, ih,
      List.filter_cons_of_neg (by decide)]

/-! ### Zeros behind the digits -/

theorem ofNat_widened {n : Nat} (positive : 0 < n) (k : Nat) :
    ofNat (n * tenTo k) = ofNat n ++ List.replicate k '0' := by
  induction k with
  | zero => simp [tenTo]
  | succ k ih =>
    have digit : ofNat (10 * (n * tenTo k)) = ofNat (n * tenTo k) ++ ['0'] :=
      (Nat.toDigits_append_toDigits (by decide) (Nat.mul_pos positive (tenTo_pos k))
        (by decide : 0 < 10)).symm
    rw [tenTo_succ, Nat.mul_left_comm, digit, ih, List.append_assoc, List.replicate_succ']

/-- A number with zeros behind it, which are there for zero as well. -/
theorem padded_widened (n k : Nat) :
    padded (k + 1) (n * tenTo k) = ofNat n ++ List.replicate k '0' := by
  rcases Nat.eq_zero_or_pos n with rfl | positive
  · have zero : ofNat 0 = ['0'] := rfl
    rw [padded, Nat.zero_mul, zero, List.length_singleton, Nat.add_sub_cancel,
      ← List.replicate_succ', List.replicate_succ]
    rfl
  · have least : 0 < (ofNat n).length := List.length_pos_iff.mpr (ofNat_ne_nil n)
    have enough : k + 1 - (ofNat n ++ List.replicate k '0').length = 0 := by
      rw [List.length_append, List.length_replicate]
      omega
    rw [padded, ofNat_widened positive, enough]
    rfl

/-- An integer with decimals: its digits, and zeros behind the point. -/
theorem fixedParts_of_whole (places n : Nat) {den : Nat} (positive : 0 < den) :
    fixedParts places (n * den) den = (ofNat n, List.replicate places '0') := by
  have exact (k : Nat) : n * den * tenTo k = n * tenTo k * den := Nat.mul_right_comm n den _
  have kept := Nat.min_le_left places (Nat.log2 den)
  simp only [fixedParts, exact, Nat.mul_mod_left, if_true, roundHalfEven_mul _ positive,
    padded_widened, List.length_append, List.length_replicate, Nat.add_sub_cancel,
    List.take_left, List.drop_left, List.replicate_append_replicate]
  rw [Nat.add_sub_cancel' kept]

/-! ### Integers with commas and decimals -/

/-- A text is an integer with commas, and with as many zeros behind a point as there are places. -/
def IsGrouped (v : Int) (places : Nat) (text : List Char) : Prop :=
  ∃ whole, InThrees (ofNat v.natAbs) whole ∧
    text = (if v < 0 then ['-'] else []) ++ whole ++
      (if places = 0 then [] else '.' :: List.replicate places '0')

/-- The nearest integer with at most 53 significant bits. -/
def nearestInt (v : Int) : Int :=
  if v < 0 then -inBits v.natAbs else inBits v.natAbs

theorem natAbs_nearestInt (v : Int) : (nearestInt v).natAbs = inBits v.natAbs := by
  unfold nearestInt
  split <;> simp

theorem nearestInt_neg_iff (v : Int) : nearestInt v < 0 ↔ v < 0 := by
  unfold nearestInt
  split
  · next negative =>
    have positive := inBits_pos (n := v.natAbs) (by omega)
    omega
  · omega

theorem nearestInt_eq_self_iff (v : Int) : nearestInt v = v ↔ FitsBits v.natAbs := by
  rw [← inBits_eq_self_iff]
  unfold nearestInt
  split <;> omega

theorem nearestInt_nearest (v : Int) {w : Int} (fits : FitsBits w.natAbs) :
    (v - nearestInt v).natAbs ≤ (v - w).natAbs := by
  have nearest := inBits_nearest v.natAbs fits
  unfold Nat.dist at nearest
  unfold nearestInt
  split <;> omega

/-- The decimal that an integer with zeros behind its point is. -/
def withZeros (v : Int) (places : Nat) : Decimal :=
  ⟨v < 0, v.natAbs * tenTo places, -places⟩

theorem toInt_of_zeros (negative : Bool) (n k : Nat) :
    (Decimal.mk negative (n * tenTo k) (-k)).toInt = if negative then -(n : Int) else n := by
  have magnitude : (if n * tenTo k = 0 then 0
      else if (0 : Int) ≤ -k then n * tenTo k * tenTo (-(k : Int)).toNat
      else n * tenTo k / tenTo (- -(k : Int)).toNat) = n := by
    split
    · next zero => exact ((Nat.mul_eq_zero.mp zero).resolve_right (tenTo_pos k).ne').symm
    · split
      · obtain rfl : k = 0 := by omega
        simp [tenTo]
      · rw [Int.neg_neg, Int.toNat_natCast, Nat.mul_div_cancel _ (tenTo_pos k)]
  simp only [Decimal.toInt, magnitude]

theorem toInt_withZeros (v : Int) (places : Nat) : (withZeros v places).toInt = v := by
  rw [withZeros, toInt_of_zeros]
  by_cases negative : v < 0
  · simp only [negative, decide_true, if_true]
    omega
  · simp only [negative, decide_false, Bool.false_eq_true, if_false]
    omega

/-- Zeros behind the digits of a number, zero among them, multiply it. -/
theorem asciiValue_zeros (n k : Nat) :
    asciiValue (ofNat n ++ List.replicate k '0') = n * tenTo k := by
  have value := ofDigits_ofNat n
  unfold asciiValue ofDigits at *
  rw [List.map_append, List.foldl_append, value, List.map_replicate]
  clear value
  induction k with
  | zero => simp [tenTo]
  | succ k ih =>
    rw [List.replicate_succ', List.foldl_append, ih, tenTo_succ, Nat.mul_left_comm]
    rfl

/-- Digits, and zeros behind a point if there are places, are read as that decimal. -/
theorem readUnsigned?_zeros (negative : Bool) (n places : Nat) :
    readUnsigned? negative
        (ofNat n ++ if places = 0 then [] else '.' :: List.replicate places '0') =
      some ⟨negative, n * tenTo places, -places⟩ := by
  have digits : ∀ c ∈ ofNat n, isAsciiDigit c = true := fun _ => isDigit_of_mem_ofNat
  have zeros : ∀ c ∈ List.replicate places '0', isAsciiDigit c = true := fun c among => by
    rw [List.eq_of_mem_replicate among]
    decide
  have proper : (ofNat n).isEmpty = false :=
    List.isEmpty_eq_false_iff.mpr (ofNat_ne_nil n)
  have value := asciiValue_zeros n places
  unfold readUnsigned?
  cases places with
  | zero =>
    obtain ⟨whole, rest⟩ := Lexer.span_of (y := []) digits rfl
    rw [if_pos rfl, whole, rest]
    simpa [proper] using value
  | succ k =>
    obtain ⟨whole, rest⟩ := Lexer.span_of (y := '.' :: List.replicate (k + 1) '0') digits rfl
    obtain ⟨fraction, done⟩ := Lexer.span_of (y := []) zeros rfl
    rw [List.append_nil] at fraction done
    rw [if_neg (Nat.succ_ne_zero k), whole, rest]
    simp only [fraction, done]
    simpa [proper] using value

/-- **An integer with commas reads back as the integer once the commas are gone.** -/
theorem IsGrouped.reads {v : Int} {places : Nat} {text : List Char} (h : IsGrouped v places text) :
    readDecimal? (text.filter (· ≠ ',')) = some (withZeros v places) := by
  obtain ⟨whole, threes, rfl⟩ := h
  have digits : whole.filter (· ≠ ',') = ofNat v.natAbs :=
    threes.digits_of_filter fun c digit comma => by
      rw [comma] at digit
      exact absurd (isDigit_of_mem_ofNat digit) (by decide)
  have fraction : (if places = 0 then [] else '.' :: List.replicate places '0').filter (· ≠ ',') =
      if places = 0 then [] else '.' :: List.replicate places '0' := by
    split
    · rfl
    · rw [List.filter_cons_of_pos (by decide), List.filter_replicate_of_pos (by decide)]
  rw [List.filter_append, List.filter_append, digits, fraction]
  by_cases negative : v < 0
  · have read := readUnsigned?_zeros true v.natAbs places
    rw [if_pos negative, withZeros, decide_eq_true negative, ← read]
    rfl
  · have read := readUnsigned?_zeros false v.natAbs places
    obtain ⟨c, ds, first⟩ := List.exists_cons_of_ne_nil (ofNat_ne_nil v.natAbs)
    have digit : c.isDigit = true := isDigit_of_mem_ofNat (first ▸ List.mem_cons_self)
    rw [if_neg negative, withZeros, decide_eq_false negative, ← read, first]
    refine readDecimal?.eq_3 _ ?_ ?_
    all_goals
      intro cs sign
      rw [(List.cons.inj sign).1] at digit
      exact absurd digit (by decide)

/-! ### Integers rounded to decimals -/

theorem overPowTen_places (n k : Nat) : overPowTen n 1 (-k) = (n * tenTo k, 1) := by
  unfold overPowTen
  cases k with
  | zero => simp [tenTo]
  | succ k => rw [if_neg (by omega), Int.neg_neg, Int.toNat_natCast]

/-- An integer that is rounded to decimals gets zeros, and not too many digits by them. -/
theorem quantize?_ofInt {v : Int} {k : Nat} {r : Decimal}
    (h : (Decimal.ofInt v).quantize? (-k) = some r) :
    r = withZeros v k ∧ (v ≠ 0 → digitCount (v.natAbs * tenTo k) ≤ precision) := by
  have whole (n : Nat) : roundHalfUp n 1 = n := by
    unfold roundHalfUp
    omega
  have exponent : (-k - (Decimal.ofInt v).exponent : Int) = -k := Int.sub_zero _
  have scaled : overPowTen (Decimal.ofInt v).coefficient 1 (-k) = (v.natAbs * tenTo k, 1) :=
    overPowTen_places v.natAbs k
  unfold Decimal.quantize? at h
  simp only [exponent, scaled, whole] at h
  split at h
  · cases h
  · split at h
    · next zero =>
      obtain rfl : v = 0 := Int.natAbs_eq_zero.mp zero
      obtain rfl := Option.some.inj h
      exact ⟨by simp [withZeros, Decimal.ofInt], fun nonzero => absurd rfl nonzero⟩
    · split at h
      · cases h
      · split at h
        · cases h
        · next short =>
          obtain rfl := Option.some.inj h
          exact ⟨rfl, fun _ => Nat.le_of_not_lt short⟩

theorem toBinary_withZeros {v : Int} {k : Nat}
    (short : v ≠ 0 → digitCount (v.natAbs * tenTo k) ≤ precision) :
    (withZeros v k).toBinary = Binary64.ofInt v := by
  by_cases zero : v = 0
  · subst zero
    simp [Decimal.toBinary, withZeros, Binary64.ofDecimal, Binary64.ofInt, Binary64.ofRatio]
  have positive : 0 < v.natAbs := Int.natAbs_pos.mpr zero
  have digits : digitCount (v.natAbs * tenTo k) = digitCount v.natAbs + k := by
    rw [digitCount, ofNat_widened positive, List.length_append, List.length_replicate, digitCount]
  have few := short zero
  rw [digits, precision] at few
  have scaled : overPowTen (v.natAbs * tenTo k) 1 (- -(k : Int)) =
      (v.natAbs * tenTo k, tenTo k) := by
    rw [Int.neg_neg, overPowTen, if_pos (by omega), Int.toNat_natCast, Nat.one_mul]
  unfold Decimal.toBinary withZeros Binary64.ofDecimal
  dsimp only
  rw [if_neg (Nat.mul_pos positive (tenTo_pos k)).ne', digits, if_neg (by omega), if_neg (by omega),
    scaled]
  exact Binary64.ofRatio_widened _ _ (tenTo_pos k)

theorem place_of_decimals {d : Nat} {place : Int} (h : placeOf d = .power place) :
    ∃ k : Nat, place = -k := by
  unfold placeOf at h
  split at h
  · cases h
  · split at h
    · cases h
    · rw [← Place.power.inj h, smallestPlace]
      exact ⟨min d 1000026, by omega⟩

end Number

namespace Filter

open Number

/-! ### What is written -/

/-- **An integer becomes the same number with and without having been rounded to decimals.** -/
theorem toFloat_of_roundTo {v : Int} {d : Nat} {rounded : Value}
    (h : roundTo d (.int v) = .ok rounded) : rounded.toFloat = Binary64.ofInt v := by
  have untouched : ∀ {r : Value}, Except.ok (ε := Failure) (Value.int v) = .ok r →
      r.toFloat = Binary64.ofInt v := fun same => by
    obtain rfl := Except.ok.inj same
    rfl
  unfold roundTo at h
  rw [show decimal? (.int v) = some (Decimal.ofInt v) from rfl] at h
  dsimp only at h
  split at h
  · cases h
  · split at h
    · exact untouched h
    · cases h
    · next place kept =>
      obtain ⟨k, rfl⟩ := place_of_decimals kept
      split at h
      · exact untouched h
      · next r quantized =>
        obtain ⟨rfl, short⟩ := quantize?_ofInt quantized
        split at h
        · obtain rfl := Except.ok.inj h
          rw [Value.toFloat, toInt_withZeros]
        · obtain rfl := Except.ok.inj h
          exact toBinary_withZeros short

/-- **A number with 53 significant bits that is an integer is written with commas.** -/
theorem isGrouped_groupedText {v : Int} (places : Nat) (inRange : (Binary64.ofInt v).isFinite = true) :
    IsGrouped (nearestInt v) places (groupedText places (Binary64.ofInt v)) := by
  obtain ⟨sign, den, positive, ratio⟩ := Binary64.ratio_of_whole inRange
  refine ⟨grouped (ofNat (inBits v.natAbs)), ?_, ?_⟩
  · rw [natAbs_nearestInt]
    exact grouped_inThrees (ofNat_ne_nil _)
  · have fraction : (List.replicate places '0').isEmpty = decide (places = 0) := by
      cases places <;> rfl
    unfold groupedText
    simp only [Binary64.ofInt, sign, ratio, fixedParts_of_whole places _ positive, withPoint,
      fraction, nearestInt_neg_iff, decide_eq_true_eq, Bool.not_false, Bool.and_true,
      List.append_assoc]

theorem text_of_writeGrouped {d : Nat} {v : Int} {rounded : Value} {s : String}
    (h : writeGrouped d (.int v) rounded = .ok (.str s)) :
    rounded.toFloat.isFinite = true ∧ s.toList = groupedText d rounded.toFloat := by
  unfold writeGrouped at h
  dsimp only at h
  split at h
  · cases h
  · split at h
    · cases h
    · next finite =>
      split at h
      · cases h
      · split at h
        · cases h
        · obtain rfl := Value.str.inj (Except.ok.inj h)
          rw [String.toList_ofList, Int.toNat_natCast]
          exact ⟨by simpa using finite, rfl⟩

/-- **Integers are written as their nearest number with 53 significant bits.** What is written for an
integer is a nearest one of all integers that fit, with its sign, with commas between groups of three
digits and with a zero for each decimal, and without the commas it reads back as that one. It is
the given integer just if that fits. -/
theorem numberFormat_writes_nearest (world : Surroundings) {v : Int} {d : Nat}
    {argument : Option String} {s : String} (asked : decimals? argument = some (d : Int))
    (written : Filter.apply (builtins world) (.int v) ⟨"number_format", argument⟩ = .ok (.str s)) :
    IsGrouped (nearestInt v) d s.toList ∧
      (readDecimal? (s.toList.filter (· ≠ ','))).map Decimal.toInt = some (nearestInt v) ∧
      (∀ w : Int, FitsBits w.natAbs → (v - nearestInt v).natAbs ≤ (v - w).natAbs) ∧
      (IsGrouped v d s.toList ↔ FitsBits v.natAbs) := by
  have filter : numberFormat (.int v) argument = .ok (.str s) := written
  have sought : decimal? (.int v) = some (Decimal.ofInt v) := rfl
  unfold numberFormat at filter
  rw [asked, sought] at filter
  dsimp only at filter
  rw [if_neg (by omega)] at filter
  split at filter
  · next rounded step =>
    obtain ⟨finite, text⟩ := text_of_writeGrouped filter
    rw [toFloat_of_roundTo step] at finite text
    have own : IsGrouped (nearestInt v) d s.toList := text ▸ isGrouped_groupedText d finite
    have read : (readDecimal? (s.toList.filter (· ≠ ','))).map Decimal.toInt =
        some (nearestInt v) := by
      rw [own.reads, Option.map_some, toInt_withZeros]
    refine ⟨own, read, fun w fits => nearestInt_nearest v fits, fun given => ?_, fun fits => ?_⟩
    · -- A text has one reading, so a text of `v` says that `v` is its own nearest number.
      rw [given.reads, Option.map_some, toInt_withZeros] at read
      exact (nearestInt_eq_self_iff v).mp (Option.some.inj read).symm
    · rwa [(nearestInt_eq_self_iff v).mpr fits] at own
  · cases filter

theorem numberFormat_writes_nearest_beyond :
    decimals? (some "2") = some 2 ∧
      Filter.apply (builtins .still) (.int (-9007199254740993)) ⟨"number_format", some "2"⟩ =
        .ok (.str "-9,007,199,254,740,992.00") ∧
      IsGrouped (-9007199254740992) 2 "-9,007,199,254,740,992.00".toList ∧
      ¬IsGrouped (-9007199254740993) 2 "-9,007,199,254,740,992.00".toList := by
  have asked : decimals? (some "2") = some ((2 : Nat) : Int) := by decide +kernel
  have written : Filter.apply (builtins .still) (.int (-9007199254740993))
      ⟨"number_format", some "2"⟩ = .ok (.str "-9,007,199,254,740,992.00") := rfl
  have nearest : nearestInt (-9007199254740993) = -9007199254740992 := by decide +kernel
  obtain ⟨own, -, -, exact⟩ := numberFormat_writes_nearest .still asked written
  refine ⟨asked, written, nearest ▸ own, fun given => ?_⟩
  have same := (nearestInt_eq_self_iff _).mpr (exact.mp given)
  rw [nearest] at same
  exact absurd same (by decide)

end Filter
end Stencil
