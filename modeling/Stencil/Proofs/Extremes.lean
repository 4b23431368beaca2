/-
# The largest and the smallest of some integers

`max` and `min` go through a sequence and keep the item that no later one beats, and
items are compared as order comparisons see them: an integer counts as its nearest
number with 53 significant bits, and beyond the range of these all integers are
alike. So the item that is kept is the first of those that are seen as the largest,
which need not be the largest. Being seen so keeps the order (`compared_mono`), so
among the items that are seen in the same way as the kept one is the largest, and
nothing is lost just if the kept one is the largest of these.

Key definitions: `Number.compared`, `Number.IsFirstTop`.
Key theorems: `Number.compared_mono`, `Binary64.lt_ofInt_iff`,
`Function.best_isFirstTop`, `Registry.extremes_as_compared`.
-/
import Stencil.Function
import Stencil.Proofs.Grouping

namespace Stencil
namespace Number

/-- The first power of two that is out of range. -/
def bound : Int :=
  twoTo 1024

/-- What order comparisons see in an integer: its nearest number with 53 significant bits, or the
bound on its side of zero. -/
def compared (v : Int) : Int :=
  max (-bound) (min bound (nearestInt v))

theorem bound_pos : 0 < bound :=
  Int.natCast_pos.mpr (twoTo_pos 1024)

theorem fitsBits_nearestInt (v : Int) : FitsBits (nearestInt v).natAbs := by
  rw [natAbs_nearestInt]
  exact fitsBits_inBits _

theorem nearestInt_mono {v w : Int} (order : v ≤ w) : nearestInt v ≤ nearestInt w := by
  by_contra above
  -- Each is nearest to its own, so they could only change places from halfway between them.
  have first := nearestInt_nearest v (fitsBits_nearestInt w)
  have second := nearestInt_nearest w (fitsBits_nearestInt v)
  have same : v = w := by omega
  rw [same] at above
  omega

/-- **What order comparisons see keeps the order.** -/
theorem compared_mono {v w : Int} (order : v ≤ w) : compared v ≤ compared w := by
  have nearest := nearestInt_mono order
  unfold compared
  omega

/-- An integer in range with at most 53 significant bits is seen as it is. -/
theorem compared_eq_self {v : Int} (fits : FitsBits v.natAbs) (inRange : v.natAbs < twoTo 1024) :
    compared v = v := by
  have nearest := (nearestInt_eq_self_iff v).mpr fits
  have range : (v.natAbs : Int) < bound := Int.ofNat_lt.mpr inRange
  unfold compared
  omega

end Number

/-! ### Order -/

namespace Binary64

open Number

/-- A number that is not below the smallest unit, counted in that unit. -/
theorem units_of_ratio (negative : Bool) (m : Nat) {e : Int} (fine : -1074 ≤ e) {num den : Nat}
    (value : (finite negative m e).ratio = (num, den)) :
    m * twoTo (e + 1074).toNat * den = num * twoTo 1074 := by
  rcases Int.le_total 0 e with coarse | below
  · obtain ⟨k, rfl⟩ := Int.eq_ofNat_of_zero_le coarse
    rw [ratio_of_coarse] at value
    obtain ⟨rfl, rfl⟩ := Prod.mk.inj value
    have exponent : ((k : Int) + 1074).toNat = k + 1074 := by omega
    rw [exponent, twoTo_add, Nat.mul_one, Nat.mul_assoc]
  · obtain ⟨k, opposite⟩ := Int.eq_ofNat_of_zero_le (show 0 ≤ -e by omega)
    obtain rfl : e = -(k : Int) := by omega
    rw [ratio_of_fine] at value
    obtain ⟨rfl, rfl⟩ := Prod.mk.inj value
    have whole : (-(k : Int) + 1074).toNat + k = 1074 := by omega
    rw [Nat.mul_assoc, ← twoTo_add, whole]

/-- An integer becomes the number that is seen in it, in units of the smallest number, or it becomes
infinite and the bound is seen. -/
theorem ofInt_cases (v : Int) :
    (∃ negative m e, ofInt v = finite negative m e ∧
        (finite negative m e).scaled = compared v * (twoTo 1074 : Nat) ∧
        -bound < compared v ∧ compared v < bound) ∨
      (ofInt v = infinite true ∧ compared v = -bound) ∨
      (ofInt v = infinite false ∧ compared v = bound) := by
  have positive := bound_pos
  have magnitude := natAbs_nearestInt v
  have sign := nearestInt_neg_iff v
  unfold ofInt
  rcases ofRatio_cases (v < 0) v.natAbs with
    ⟨inRange, m, e, den, made, fine, unit, value⟩ | ⟨beyond, made⟩
  · have range : (inBits v.natAbs : Int) < bound := Int.ofNat_lt.mpr inRange
    have seen : compared v = nearestInt v := by
      unfold compared
      omega
    refine .inl ⟨_, m, e, made, ?_, by omega, by omega⟩
    have units : m * twoTo (e + 1074).toNat = inBits v.natAbs * twoTo 1074 := by
      refine Nat.eq_of_mul_eq_mul_right unit ?_
      rw [units_of_ratio _ m fine value, Nat.mul_right_comm]
    have product : (m : Int) * (twoTo (e + 1074).toNat : Nat) =
        inBits v.natAbs * (twoTo 1074 : Nat) := by
      rw [← Int.natCast_mul, units, Int.natCast_mul]
    rw [seen, scaled, nearestInt]
    simp only [decide_eq_true_eq, product]
    split
    · rw [Int.neg_mul]
    · rfl
  · have range : bound ≤ inBits v.natAbs := Int.ofNat_le.mpr beyond
    rw [made]
    right
    by_cases negative : v < 0
    · left
      refine ⟨by rw [decide_eq_true negative], ?_⟩
      unfold compared
      omega
    · right
      refine ⟨by rw [decide_eq_false negative], ?_⟩
      unfold compared
      omega

/-- **Integers are in order as they are seen.** -/
theorem lt_ofInt_iff (v w : Int) :
    (ofInt v).lt (ofInt w) = true ↔ compared v < compared w := by
  have positive := bound_pos
  have unit : (0 : Int) < (twoTo 1074 : Nat) := Int.natCast_pos.mpr (twoTo_pos 1074)
  rcases ofInt_cases v with ⟨_, _, _, first, value, low, high⟩ | ⟨first, value⟩ | ⟨first, value⟩ <;>
    rcases ofInt_cases w with ⟨_, _, _, second, value', low', high'⟩ | ⟨second, value'⟩ |
      ⟨second, value'⟩ <;> rw [first, second]
  · simp only [lt, value, value', decide_eq_true_eq]
    exact Int.mul_lt_mul_right unit
  all_goals
    simp [lt]
    omega

end Binary64

namespace Number

/-! ### The first of the largest -/

/-- The first of those integers in a list whose key is largest. -/
def IsFirstTop (key : Int → Int) (items : List Int) (top : Int) : Prop :=
  ∃ before after, items = before ++ top :: after ∧
    (∀ w ∈ before, key w < key top) ∧ ∀ w ∈ after, key w ≤ key top

namespace IsFirstTop

variable {key : Int → Int} {items : List Int} {top v w : Int}

theorem mem (h : IsFirstTop key items top) : top ∈ items := by
  obtain ⟨before, after, rfl, -, -⟩ := h
  simp

theorem le (h : IsFirstTop key items top) (member : w ∈ items) : key w ≤ key top := by
  obtain ⟨before, after, rfl, smaller, most⟩ := h
  rcases List.mem_append.mp member with earlier | later
  · exact (smaller w earlier).le
  · rcases List.mem_cons.mp later with rfl | later
    · exact Int.le_refl _
    · exact most w later

/-- An item with a smaller key may stand in front. -/
theorem cons (h : IsFirstTop key items top) (below : key v < key top) :
    IsFirstTop key (v :: items) top := by
  obtain ⟨before, after, rfl, smaller, most⟩ := h
  exact ⟨v :: before, after, rfl, List.forall_mem_cons.mpr ⟨below, smaller⟩, most⟩

/-- An item that does not beat the first one may stand behind it. -/
theorem insert (h : IsFirstTop key (v :: items) top) (beaten : key w ≤ key v) :
    IsFirstTop key (v :: w :: items) top := by
  obtain ⟨before, after, split, smaller, most⟩ := h
  cases before with
  | nil =>
    obtain ⟨rfl, rfl⟩ := List.cons.inj split
    exact ⟨[], w :: items, rfl, smaller, List.forall_mem_cons.mpr ⟨beaten, most⟩⟩
  | cons u before =>
    obtain ⟨rfl, rfl⟩ := List.cons.inj split
    have below : key v < key top := smaller v List.mem_cons_self
    refine ⟨v :: w :: before, after, rfl, ?_, most⟩
    rw [List.forall_mem_cons] at smaller ⊢
    exact ⟨below, List.forall_mem_cons.mpr ⟨by omega, smaller.2⟩⟩

/-- Where all items have one key, the first of them is it. -/
theorem eq_of_alike (h : IsFirstTop key (v :: items) top) (alike : ∀ w ∈ items, key w = key v) :
    top = v := by
  obtain ⟨before, after, split, smaller, -⟩ := h
  cases before with
  | nil => exact (List.cons.inj split).1.symm
  | cons u before =>
    obtain ⟨rfl, rfl⟩ := List.cons.inj split
    have below : key v < key top := smaller v List.mem_cons_self
    have same : key top = key v := alike top (by simp)
    omega

/-- If the key keeps an order, the first with the largest key is the greatest of all just if it is
the greatest of those with its key. -/
theorem greatest_iff {r : Int → Int → Prop} (total : ∀ v w, r v w ∨ r w v)
    (mono : ∀ v w, r v w → key v ≤ key w) (h : IsFirstTop key items top) :
    (∀ w ∈ items, r w top) ↔ ∀ w ∈ items, key w = key top → r w top := by
  refine ⟨fun greatest w member _ => greatest w member, fun alike w member => ?_⟩
  rcases total w top with below | above
  · exact below
  · exact alike w member (Int.le_antisymm (h.le member) (mono top w above))

end IsFirstTop
end Number

open Number

namespace Function

/-- **The item that is kept is the first of the largest.** -/
theorem best_isFirstTop {key : Int → Int} {beats : Value → Value → Bool}
    (ranked : ∀ v w : Int, beats (.int w) (.int v) = decide (key v < key w)) (v : Int)
    (ws : List Int) :
    ∃ top : Int, best beats (.int v) (ws.map .int) = .int top ∧ IsFirstTop key (v :: ws) top := by
  induction ws generalizing v with
  | nil => exact ⟨v, rfl, [], [], rfl, List.forall_mem_nil _, List.forall_mem_nil _⟩
  | cons w ws ih =>
    rw [List.map_cons, best, ranked]
    by_cases beaten : key v < key w
    · obtain ⟨top, kept, first⟩ := ih w
      have below : key v < key top := Int.lt_of_lt_of_le beaten (first.le List.mem_cons_self)
      refine ⟨top, ?_, first.cons below⟩
      rw [decide_eq_true beaten, if_pos rfl, kept]
    · obtain ⟨top, kept, first⟩ := ih v
      refine ⟨top, ?_, first.insert (Int.not_lt.mp beaten)⟩
      rw [decide_eq_false beaten, if_neg Bool.false_ne_true, kept]

theorem extreme_of_items {v first : Value} {rest : List Value} (beats : Value → Value → Bool)
    (holds : v.items? = some (first :: rest)) :
    extreme beats [v] = .ok (best beats first rest) := by
  have sequence : v.isNumber = false := by
    cases v with
    | int n => cases holds
    | float x => cases holds
    | _ => rfl
  rw [extreme, sequence, holds]
  rfl

/-- The first of the largest is the result for every sequence of integers. -/
theorem extreme_isFirstTop {key : Int → Int} {beats : Value → Value → Bool}
    (ranked : ∀ v w : Int, beats (.int w) (.int v) = decide (key v < key w)) {v : Value}
    {items : List Int} (holds : v.items? = some (items.map .int)) (proper : items ≠ []) :
    ∃ top : Int, extreme beats [v] = .ok (.int top) ∧ IsFirstTop key items top := by
  obtain ⟨n, ns, rfl⟩ := List.exists_cons_of_ne_nil proper
  obtain ⟨top, kept, first⟩ := best_isFirstTop ranked n ns
  exact ⟨top, by rw [extreme_of_items beats holds, kept], first⟩

theorem greater_ranked (v w : Int) :
    greater (.int w) (.int v) = decide (compared v < compared w) := by
  rw [Bool.eq_iff_iff, decide_eq_true_eq]
  exact Binary64.lt_ofInt_iff v w

theorem less_ranked (v w : Int) :
    less (.int w) (.int v) = decide (-compared v < -compared w) := by
  rw [Bool.eq_iff_iff, decide_eq_true_eq, Int.neg_lt_neg_iff]
  exact Binary64.lt_ofInt_iff w v

end Function

namespace Registry

/-- **The largest and the smallest are the first that are seen as such.** In a sequence of integers
that is not empty, `max` finds the first of those that order comparisons see as the largest, and
`min` the first of those that they see as the smallest. They are the largest and the smallest of the
sequence just if they are so among the integers that are seen in the same way, and this holds where
every integer is in range and has at most 53 significant bits. -/
theorem extremes_as_compared (world : Surroundings) {v : Value} {items : List Int}
    (holds : v.items? = some (items.map .int)) (proper : items ≠ []) :
    ∃ top bottom : Int,
      (builtins world).call "max" [v] = .ok (.int top) ∧
      (builtins world).call "min" [v] = .ok (.int bottom) ∧
      IsFirstTop compared items top ∧ IsFirstTop (fun n => -compared n) items bottom ∧
      ((∀ w ∈ items, w ≤ top) ↔ ∀ w ∈ items, compared w = compared top → w ≤ top) ∧
      ((∀ w ∈ items, bottom ≤ w) ↔ ∀ w ∈ items, compared w = compared bottom → bottom ≤ w) ∧
      ((∀ w ∈ items, FitsBits w.natAbs ∧ w.natAbs < twoTo 1024) →
        ∀ w ∈ items, bottom ≤ w ∧ w ≤ top) := by
  obtain ⟨top, largest, first⟩ := Function.extreme_isFirstTop Function.greater_ranked holds proper
  obtain ⟨bottom, smallest, last⟩ := Function.extreme_isFirstTop Function.less_ranked holds proper
  have highest := first.greatest_iff (fun v w => Int.le_total v w) fun _ _ => compared_mono
  have lowest := last.greatest_iff (fun v w => Int.le_total w v) fun _ _ order =>
    Int.neg_le_neg (compared_mono order)
  simp only [Int.neg_inj] at lowest
  refine ⟨top, bottom, largest, smallest, first, last, highest, lowest, fun exact => ?_⟩
  have seen (w : Int) (member : w ∈ items) : compared w = w :=
    compared_eq_self (exact w member).1 (exact w member).2
  intro w member
  have above := first.le member
  have below := last.le member
  rw [seen w member, seen _ first.mem] at above
  rw [seen w member, seen _ last.mem] at below
  omega

/-- Three integers that are seen in the same way. -/
def alike : List Int :=
  [18014398509481984, 18014398509481985, 18014398509481983]

theorem extremes_as_compared_alike :
    (Value.list (alike.map .int)).items? = some (alike.map .int) ∧ alike ≠ [] ∧
      (builtins .still).call "max" [.list (alike.map .int)] = .ok (.int 18014398509481984) ∧
      (builtins .still).call "min" [.list (alike.map .int)] = .ok (.int 18014398509481984) ∧
      ¬(∀ w ∈ alike, w ≤ 18014398509481984) ∧ ¬∀ w ∈ alike, 18014398509481984 ≤ w := by
  have holds : (Value.list (alike.map .int)).items? = some (alike.map .int) := rfl
  have proper : alike ≠ [] := List.cons_ne_nil _ _
  have same : ∀ w ∈ alike.tail, compared w = compared 18014398509481984 := by decide +kernel
  obtain ⟨top, bottom, largest, smallest, first, last, highest, lowest, -⟩ :=
    extremes_as_compared .still holds proper
  obtain rfl := first.eq_of_alike same
  obtain rfl := last.eq_of_alike fun w member => congrArg Neg.neg (same w member)
  refine ⟨holds, proper, largest, smallest, fun all => ?_, fun all => ?_⟩
  · exact absurd (highest.mp all 18014398509481985 (by decide) (same _ (by decide))) (by decide)
  · exact absurd (lowest.mp all 18014398509481983 (by decide) (same _ (by decide))) (by decide)

end Registry
end Stencil
