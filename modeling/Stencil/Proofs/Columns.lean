/-
# Numbers in columns

A number is written in a column by zeros in front of it, up to the width of the column.
Numbers that fit are then told apart from what stands behind them: each is read back
from its column (`Calendar.takeDigits?_padded`), and texts that begin with columns of
one width are in the order of the numbers in them, whatever follows
(`Number.padded_lt`), and in the order of what follows if these are the same.

Key theorems: `Number.padded_succ`, `Number.ofNat_eq_padded`, `Number.padded_lt`,
`Number.column_lt`, `Calendar.takeDigits?_padded`.
-/
import Stencil.Calendar.Iso
import Stencil.Proofs.Decimal

namespace Stencil

namespace Number

theorem padded_of_lt_ten {n : Nat} (small : n < 10) : padded 1 n = [n.digitChar] := by
  rw [padded, ofNat, Nat.toDigits_of_lt_base small]
  rfl

/-- The last digit of a number stands in the last column. -/
theorem padded_succ (w n : Nat) :
    padded (w + 2) n = padded (w + 1) (n / 10) ++ [(n % 10).digitChar] := by
  have digits := Nat.toDigits_eq_if (b := 10) (n := n) (by decide)
  unfold padded ofNat
  by_cases small : n < 10
  · have zero : n / 10 = 0 := by omega
    have one : Nat.toDigits 10 0 = ['0'] := rfl
    rw [digits, if_pos small, zero, one, Nat.mod_eq_of_lt small]
    simp [List.replicate_succ']
  · rw [if_neg small] at digits
    have width (k : Nat) : w + 2 - (k + 1) = w + 1 - k := by omega
    dsimp only
    rw [digits, List.length_append, List.length_singleton, width, List.append_assoc]

/-- Two columns are two digits. -/
theorem exists_padded_two {n : Nat} (fits : n < 100) :
    ∃ a b, padded 2 n = [a, b] ∧ a.isDigit = true ∧ b.isDigit = true := by
  refine ⟨(n / 10).digitChar, (n % 10).digitChar, ?_, ?_, ?_⟩
  · rw [padded_succ, padded_of_lt_ten (by omega)]
    rfl
  · rw [Nat.isDigit_digitChar, decide_eq_true (by omega)]
  · rw [Nat.isDigit_digitChar, decide_eq_true (by omega)]

theorem length_padded {w n : Nat} (fits : n < tenTo (w + 1)) :
    (padded (w + 1) n).length = w + 1 := by
  have few : (ofNat n).length ≤ w + 1 := (digitCount_le_iff (Nat.succ_pos w)).mpr fits
  rw [padded, List.length_append, List.length_replicate]
  omega

/-- A number that fills its column is written without zeros in front. -/
theorem ofNat_eq_padded {w n : Nat} (full : tenTo (w + 1) ≤ n) (fits : n < tenTo (w + 2)) :
    ofNat n = padded (w + 2) n := by
  have most : (ofNat n).length ≤ w + 2 := (digitCount_le_iff (Nat.succ_pos _)).mpr fits
  have least : ¬(ofNat n).length ≤ w + 1 := fun few =>
    absurd ((digitCount_le_iff (Nat.succ_pos _)).mp few) (Nat.not_lt.mpr full)
  have exact : (ofNat n).length = w + 2 := by omega
  rw [padded, exact, Nat.sub_self]
  rfl

theorem isDigit_of_mem_padded {w n : Nat} {c : Char} (member : c ∈ padded w n) :
    c.isDigit = true := by
  rcases List.mem_append.mp member with zero | digit
  · rw [List.eq_of_mem_replicate zero]
    rfl
  · exact isDigit_of_mem_ofNat digit

/-- A number is read from its columns. -/
theorem ofDigits_padded (w n : Nat) : ofDigits ((padded w n).map fun c => c.toNat - 0x30) = n := by
  have value := ofDigits_ofNat n
  have zeros (k : Nat) : ((List.replicate k '0').map fun c => c.toNat - 0x30).foldl
      (fun n d => 10 * n + d) 0 = 0 := by
    induction k with
    | zero => rfl
    | succ k ih => rw [List.replicate_succ]; exact ih
  rw [padded, List.map_append, ofDigits, List.foldl_append, zeros]
  exact value

theorem digitChar_lt {a b : Nat} (less : a < b) (small : b < 10) : a.digitChar < b.digitChar := by
  show a.digitChar.toNat < b.digitChar.toNat
  rw [Nat.toNat_digitChar_of_lt_ten (by omega), Nat.toNat_digitChar_of_lt_ten small]
  omega

/-- **In columns of one width the smaller number comes first.** -/
theorem padded_lt {w m n : Nat} (less : m < n) (fits : n < tenTo (w + 1)) (cs ds : List Char) :
    padded (w + 1) m ++ cs < padded (w + 1) n ++ ds := by
  induction w generalizing m n cs ds with
  | zero =>
    have small : n < 10 := fits
    rw [padded_of_lt_ten small, padded_of_lt_ten (by omega)]
    exact List.cons_lt_cons_iff.mpr (.inl (digitChar_lt less small))
  | succ w ih =>
    rw [tenTo_succ] at fits
    rw [padded_succ, padded_succ, List.append_assoc, List.append_assoc]
    have fronts : m / 10 ≤ n / 10 := Nat.div_le_div_right (Nat.le_of_lt less)
    rcases Nat.lt_or_eq_of_le fronts with front | front
    · exact ih front (by omega) _ _
    · rw [front]
      have last : (m % 10).digitChar < (n % 10).digitChar := digitChar_lt (by omega) (by omega)
      exact List.append_left_lt (List.cons_lt_cons_iff.mpr (.inl last))

/-- Columns of one width with a mark behind them are in order as they are, or, if they are the same,
as what follows the mark. -/
theorem column_lt {w m n : Nat} (fits : n < tenTo (w + 1)) {mark : Char} {cs ds : List Char}
    (earlier : m < n ∨ m = n ∧ cs < ds) :
    padded (w + 1) m ++ mark :: cs < padded (w + 1) n ++ mark :: ds := by
  rcases earlier with less | ⟨rfl, behind⟩
  · exact padded_lt less fits _ _
  · exact List.append_left_lt (List.cons_lt_cons_iff.mpr (.inr ⟨rfl, behind⟩))

end Number

namespace Calendar

open Number

/-- **A number is read from its columns, whatever stands behind them.** -/
theorem takeDigits?_padded {w n : Nat} (fits : n < tenTo (w + 1)) (cs : List Char) :
    takeDigits? (w + 1) (padded (w + 1) n ++ cs) = some (n, cs) := by
  have length := length_padded fits
  have front : (padded (w + 1) n ++ cs).take (w + 1) = padded (w + 1) n := List.take_left' length
  have back : (padded (w + 1) n ++ cs).drop (w + 1) = cs := List.drop_left' length
  have digits : (padded (w + 1) n).all isNumeral = true :=
    List.all_eq_true.mpr fun _ => isDigit_of_mem_padded
  simp [takeDigits?, front, back, length, digits, ofDigits_padded]

end Calendar

end Stencil
