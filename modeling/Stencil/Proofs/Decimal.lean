/-
# Integers written and read

An integer that was read has no more digits than a numeral may have, and in plain
decimal it is read again as the same integer. Zeros in front, digits of other
scripts and underscores make a numeral longer, never shorter.

Key theorems: `Number.digitCount_of_parse`, `Number.parse?_of_digits`, `Number.parse_ofNat`,
`Number.parse?_ofInt`.
-/
import Mathlib.Algebra.Group.Nat.Defs
import Stencil.Number.Integer
import Stencil.Proofs.Lexemes

namespace Stencil

namespace Text

theorem decimalValue?_of_isDigit {c : Char} (h : c.isDigit = true) :
    decimalValue? c = some (c.toNat - 0x30) := by
  have range := Lexer.range_of_isDigit h
  unfold decimalValue?
  rw [if_pos (by omega), if_pos h]

theorem decimalValue?_le {c : Char} {d : Nat} (h : decimalValue? c = some d) : d ≤ 9 := by
  unfold decimalValue? at h
  split at h
  · split at h
    · next digit =>
      have range := Lexer.range_of_isDigit digit
      rw [Option.some.injEq] at h
      omega
    · cases h
  · split at h
    · rw [Option.some.injEq] at h
      omega
    · cases h

theorem ne_of_isDigit {c mark : Char} (digit : c.isDigit = true) (other : mark.isDigit = false) :
    c ≠ mark := by
  rintro rfl
  rw [digit] at other
  cases other

theorem isBlank_of_isDigit {c : Char} (h : c.isDigit = true) : isBlank c = false :=
  Lexer.isBlank_of_isWordChar (Lexer.isWordChar_of_isDigit h)

/-- Text is not trimmed that neither begins nor ends with a blank. -/
theorem trim_of_ends {cs : List Char} (first : ∀ c ∈ cs.head?, isBlank c = false)
    (last : ∀ c ∈ cs.getLast?, isBlank c = false) : trim cs = cs := by
  have front : trimStart isBlank cs = cs := by
    cases cs with
    | nil => rfl
    | cons c cs => simp [trimStart, first c rfl]
  have back : trimEnd isBlank cs = cs := by
    clear front first
    induction cs with
    | nil => rfl
    | cons c cs ih =>
      cases cs with
      | nil => simp [trimEnd, last c rfl]
      | cons d ds =>
        rw [List.getLast?_cons_cons] at last
        rw [trimEnd, ih last]
  rw [trim, trimBy, front, back]

/-- Text with no blanks in it is not trimmed. -/
theorem trim_of_no_blank {cs : List Char} (h : ∀ c ∈ cs, isBlank c = false) : trim cs = cs :=
  trim_of_ends (fun c first => h c (List.mem_of_head? first))
    fun c last => h c (List.mem_of_getLast? last)

end Text

namespace Number

theorem tenTo_succ (k : Nat) : tenTo (k + 1) = 10 * tenTo k :=
  Nat.pow_succ'

theorem tenTo_pos (k : Nat) : 0 < tenTo k :=
  Nat.pow_pos (by decide)

theorem tenTo_le {j k : Nat} (h : j ≤ k) : tenTo j ≤ tenTo k :=
  Nat.pow_le_pow_right (by decide) h

theorem digitValues?_le (cs : List Char) : ∀ {ds : List Nat}, digitValues? cs = some ds →
    ∀ d ∈ ds, d ≤ 9 := by
  induction cs using digitValues?.induct with
  | case1 =>
    intro ds h
    cases h
  | case2 c =>
    intro ds h
    obtain ⟨d, value, rfl⟩ := Option.map_eq_some_iff.mp h
    exact List.forall_mem_singleton.mpr (Text.decimalValue?_le value)
  | case3 c cs d ds values value ih =>
    intro ds' h
    rw [digitValues?.eq_3, value, values, Option.some.injEq] at h
    rw [← h, List.forall_mem_cons]
    exact ⟨Text.decimalValue?_le value, ih values⟩
  | case4 c cs none ih =>
    intro ds h
    rw [digitValues?.eq_3] at h
    split at h
    · next value values => exact (none _ _ value values).elim
    · cases h
  | case5 c cs some plain d ds values value ih =>
    intro ds' h
    rw [digitValues?.eq_4 c cs some plain, value, values, Option.some.injEq] at h
    rw [← h, List.forall_mem_cons]
    exact ⟨Text.decimalValue?_le value, ih values⟩
  | case6 c cs some plain none ih =>
    intro ds h
    rw [digitValues?.eq_4 c cs some plain] at h
    split at h
    · next value values => exact (none _ _ value values).elim
    · cases h

/-- The values of ASCII digits. -/
theorem digitValues?_of_digits {cs : List Char} (proper : cs ≠ [])
    (digits : ∀ c ∈ cs, c.isDigit = true) :
    digitValues? cs = some (cs.map fun c => c.toNat - 0x30) := by
  induction cs with
  | nil => exact absurd rfl proper
  | cons c cs ih =>
    rw [List.forall_mem_cons] at digits
    have value := Text.decimalValue?_of_isDigit digits.1
    cases cs with
    | nil => simp [digitValues?, value]
    | cons d ds =>
      have plain : ∀ tail, d :: ds = '_' :: tail → False := fun tail same => by
        have digit := digits.2 d List.mem_cons_self
        rw [(List.cons.inj same).1] at digit
        exact absurd digit (by decide)
      rw [digitValues?.eq_4 c _ (List.cons_ne_nil d ds) plain, value,
        ih (List.cons_ne_nil _ _) digits.2]
      rfl

theorem ofDigits_lt {ds : List Nat} (h : ∀ d ∈ ds, d ≤ 9) : ofDigits ds < 10 ^ ds.length := by
  have step : ∀ (ds : List Nat) (n : Nat), (∀ d ∈ ds, d ≤ 9) →
      ds.foldl (fun n d => 10 * n + d) n < (n + 1) * 10 ^ ds.length := by
    intro ds
    induction ds with
    | nil => intro n _; simp
    | cons d ds ih =>
      intro n h
      rw [List.forall_mem_cons] at h
      have behind := ih (10 * n + d) h.2
      have more : (10 * n + d + 1) * 10 ^ ds.length ≤ (10 * (n + 1)) * 10 ^ ds.length :=
        Nat.mul_le_mul_right _ (by omega)
      rw [List.foldl_cons, List.length_cons, Nat.pow_succ]
      calc _ < _ := behind
        _ ≤ _ := more
        _ = _ := by rw [Nat.mul_comm 10, Nat.mul_assoc, Nat.mul_comm 10]
  simpa [ofDigits] using step ds 0 h

theorem digitCount_le_iff {n k : Nat} (positive : 0 < k) : digitCount n ≤ k ↔ n < tenTo k :=
  Nat.length_toDigits_le_iff (by decide) positive

/-- Integers are too long from the first power of ten on that is. -/
theorem isLong_iff (n : Int) : isLong n = true ↔ tenTo digitLimit ≤ n.natAbs := by
  rw [isLong, decide_eq_true_eq, ← Nat.not_le, digitCount_le_iff (by decide), Nat.not_lt]

/-- A number that was read is not too long. -/
theorem digitCount_of_parseNat {cs : List Char} {n : Nat} (h : parseNat? cs = some n) :
    digitCount n ≤ digitLimit := by
  unfold parseNat? at h
  cases values : digitValues? cs with
  | none =>
    rw [values] at h
    cases h
  | some ds =>
    rw [values] at h
    dsimp only at h
    by_cases short : ds.length ≤ digitLimit
    · rw [if_pos short, Option.some.injEq] at h
      have small : n < tenTo digitLimit :=
        calc n = ofDigits ds := h.symm
          _ < tenTo ds.length := ofDigits_lt (digitValues?_le cs values)
          _ ≤ tenTo digitLimit := tenTo_le short
      exact (digitCount_le_iff (by decide)).mpr small
    · rw [if_neg short] at h
      cases h

/-- **An integer that was read is not too long.** -/
theorem digitCount_of_parse {cs : List Char} {n : Int} (h : parse? cs = some n) :
    digitCount n.natAbs ≤ digitLimit := by
  unfold parse? at h
  split at h
  all_goals
    revert h
    generalize value : parseNat? _ = read
    intro h
    cases read with
    | none => cases h
    | some k =>
      obtain rfl := Option.some.inj h
      simpa using digitCount_of_parseNat value

theorem isDigit_of_mem_ofNat {n : Nat} {c : Char} (h : c ∈ ofNat n) : c.isDigit = true :=
  Nat.isDigit_of_mem_toDigits (by decide) (by decide) h

/-- What ASCII digits are read as, if there are not too many. -/
theorem parseNat?_of_digits {cs : List Char} (proper : cs ≠ [])
    (digits : ∀ c ∈ cs, c.isDigit = true) :
    parseNat? cs =
      if cs.length ≤ digitLimit then some (ofDigits (cs.map fun c => c.toNat - 0x30)) else none := by
  rw [parseNat?, digitValues?_of_digits proper digits]
  dsimp only
  rw [List.length_map]

theorem parse?_of_digits {cs : List Char} (proper : cs ≠ [])
    (digits : ∀ c ∈ cs, c.isDigit = true) :
    parse? cs =
      if cs.length ≤ digitLimit then some (ofDigits (cs.map fun c => c.toNat - 0x30) : Int)
      else none := by
  have trimmed : Text.trim cs = cs := Text.trim_of_no_blank fun c hc =>
    Text.isBlank_of_isDigit (digits c hc)
  unfold parse?
  rw [trimmed]
  split
  · exact absurd (digits '-' List.mem_cons_self) (by decide)
  · exact absurd (digits '+' List.mem_cons_self) (by decide)
  · rw [parseNat?_of_digits proper digits]
    split <;> rfl

theorem ofNat_ne_nil (n : Nat) : ofNat n ≠ [] :=
  Nat.toDigits_ne_nil

/-- The digits of a number stand for that number. -/
theorem ofDigits_ofNat (n : Nat) : ofDigits ((ofNat n).map fun c => c.toNat - 0x30) = n := by
  rw [ofDigits, List.foldl_map]
  exact Nat.ofDigitChars_toDigits (by decide) (by decide)

/-- Digits in plain decimal have no blanks around them. -/
theorem trim_ofNat (n : Nat) : Text.trim (ofNat n) = ofNat n :=
  Text.trim_of_no_blank fun _ digit => Text.isBlank_of_isDigit (isDigit_of_mem_ofNat digit)

theorem parseNat?_ofNat (n : Nat) :
    parseNat? (ofNat n) = if digitCount n ≤ digitLimit then some n else none := by
  rw [parseNat?_of_digits (ofNat_ne_nil n) fun _ => isDigit_of_mem_ofNat, ofDigits_ofNat, digitCount]

theorem parse?_ofNat (n : Nat) :
    parse? (ofNat n) = if digitCount n ≤ digitLimit then some (n : Int) else none := by
  rw [parse?_of_digits (ofNat_ne_nil n) fun _ => isDigit_of_mem_ofNat, ofDigits_ofNat, digitCount]

/-- **A number in plain decimal is read as the same number.** -/
theorem parse_ofNat {n : Nat} (short : digitCount n ≤ digitLimit) :
    parse? (ofNat n) = some (n : Int) := by
  rw [parse?_ofNat, if_pos short]

/-- A number behind a minus sign is read as its negative. -/
theorem parse?_minus (n : Nat) :
    parse? ('-' :: ofNat n) = if digitCount n ≤ digitLimit then some (-(n : Int)) else none := by
  have trimmed : Text.trim ('-' :: ofNat n) = '-' :: ofNat n :=
    Text.trim_of_no_blank (List.forall_mem_cons.mpr
      ⟨by decide, fun _ digit => Text.isBlank_of_isDigit (isDigit_of_mem_ofNat digit)⟩)
  unfold parse?
  rw [trimmed]
  simp only [parseNat?_ofNat]
  split <;> rfl

/-- **An integer is read as the same integer, unless it is too long to be read.** -/
theorem parse?_ofInt (n : Int) : parse? (ofInt n) = if isLong n then none else some n := by
  have long : (isLong n = true) = ¬digitCount n.natAbs ≤ digitLimit := by simp [isLong]
  unfold ofInt
  simp only [long, ite_not]
  by_cases negative : n < 0
  · have same : -(n.natAbs : Int) = n := by omega
    rw [if_pos negative, parse?_minus, same]
  · have same : (n.natAbs : Int) = n := by omega
    rw [if_neg negative, parse?_ofNat, same]

end Number
end Stencil
