/-
# Strings and integers in JSON

A string is written between quotes, with some of its characters escaped: by a letter
of their own after a backslash, or by their number. Whatever way a character is
written in, it is read from there alone, so a string is read up to its closing quote
and no further (`Json.readString?_string`).

An integer has no mark of its own at its end. It is read as it was written if
nothing follows that a numeral could go on with, and if it is no longer than
integers may be (`Json.readAtom_ofInt`).

Key definitions: `Json.Ends`.
Key theorems: `Text.readHex?_hexPadded`, `Json.escapeChar_cases`,
`Json.readString?_string`, `Json.readAtom_ofInt`.
-/
import Mathlib.Data.List.Infix
import Stencil.Proofs.Decimal
import Stencil.Value.Json
import Stencil.Value.JsonReader

namespace Stencil

namespace Text

theorem hexDigit_reads : ∀ d < 16, isHexDigit (hexDigit d) = true ∧ hexValue (hexDigit d) = d := by
  decide

theorem all_isHexDigit_hexPadded (width n : Nat) : (hexPadded width n).all isHexDigit = true := by
  induction width generalizing n with
  | zero => rfl
  | succ width ih =>
    have last := (hexDigit_reads (n % 16) (Nat.mod_lt n (by decide))).1
    rw [hexPadded, List.all_append, ih, List.all_cons, last]
    rfl

theorem le_of_isHexDigit {c : Char} (digit : isHexDigit c = true) : 0x20 ≤ c.toNat := by
  simp only [isHexDigit, Char.isDigit, Bool.or_eq_true, Bool.and_eq_true, decide_eq_true_eq,
    Char.le_def, UInt32.le_iff_toNat_le, ge_iff_le] at digit
  rcases digit with (digit | digit) | digit <;> exact Nat.le_trans (by decide) digit.1

/-- A number is read from as many digits as it has. -/
theorem readHex?_hexPadded (width n : Nat) :
    readHex? (hexPadded width n) = some (n % 16 ^ width) := by
  have value (width n : Nat) :
      (hexPadded width n).foldl (fun n c => 16 * n + hexValue c) 0 = n % 16 ^ width := by
    induction width generalizing n with
    | zero => simp [hexPadded, Nat.mod_one]
    | succ width ih =>
      have last := (hexDigit_reads (n % 16) (Nat.mod_lt n (by decide))).2
      rw [hexPadded, List.foldl_append, ih, List.foldl_cons, List.foldl_nil, last, Nat.pow_succ',
        Nat.mod_mul, Nat.add_comm]
  rw [readHex?, if_pos (all_isHexDigit_hexPadded width n), value]

end Text

namespace Json

/-! ### Strings -/

/-- A number in four hexadecimal digits that is not the first half of a pair. -/
theorem readString?_unicode {a b c d : Char} {n : Nat} (read : Text.readHex? [a, b, c, d] = some n)
    (whole : isHigh n = false) (cs : List Char) :
    readString? ('\\' :: 'u' :: a :: b :: c :: d :: cs) =
      (readString? cs).map fun r => (.ofNumber n :: r.1, r.2) := by
  -- the reader looks ahead for a second number, which then stays to be read
  by_cases another : ∃ e f g h tail, cs = '\\' :: 'u' :: e :: f :: g :: h :: tail
  · obtain ⟨e, f, g, h, tail, rfl⟩ := another
    rw [readString?.eq_3, read]
    cases Text.readHex? [e, f, g, h] with
    | none => rfl
    | some m => simp only [whole, Bool.false_and, Bool.false_eq_true, if_false]
  · have alone : ∀ e f g h tail, cs = '\\' :: 'u' :: e :: f :: g :: h :: tail → False :=
      fun e f g h tail same => another ⟨e, f, g, h, tail, same⟩
    rw [readString?.eq_4 a b c d cs alone, read]

theorem readString?_named {c image : Char} (known : namedEscapes.lookup c = some image)
    (other : c ≠ 'u') (cs : List Char) :
    readString? ('\\' :: c :: cs) = (readString? cs).map fun r => (.char image :: r.1, r.2) := by
  rw [readString?.eq_5 c cs (fun _ _ _ _ _ _ _ _ _ same _ => other same)
    (fun _ _ _ _ _ same _ => other same), known]

theorem readString?_plain {c : Char} (quote : c ≠ '"') (slash : c ≠ '\\') (visible : 0x20 ≤ c.toNat)
    (cs : List Char) :
    readString? (c :: cs) = (readString? cs).map fun r => (.char c :: r.1, r.2) := by
  rw [readString?.eq_6 c cs quote (fun _ _ _ _ _ _ _ _ _ same _ => slash same)
    (fun _ _ _ _ _ same _ => slash same) (fun _ _ same _ => slash same), if_neg (by omega)]

/-- A character is escaped by a letter after a backslash, by its number, or not at all. -/
theorem escapeChar_cases (c : Char) :
    (∃ letter, escapeChar c = ['\\', letter] ∧ namedEscapes.lookup letter = some c ∧
        0x20 ≤ letter.toNat ∧ letter ≠ 'u') ∨
      (escapeChar c = '\\' :: 'u' :: Text.hexPadded 4 c.toNat ∧ c.toNat < 0x20) ∨
      (escapeChar c = [c] ∧ 0x20 ≤ c.toNat ∧ c ≠ '"' ∧ c ≠ '\\') := by
  unfold escapeChar
  split_ifs with marks feed back tab rub form control
  · rcases marks with rfl | rfl
    · exact .inl ⟨'"', rfl, rfl, by decide, by decide⟩
    · exact .inl ⟨'\\', rfl, rfl, by decide, by decide⟩
  · exact .inl ⟨'n', rfl, feed ▸ rfl, by decide, by decide⟩
  · exact .inl ⟨'r', rfl, back ▸ rfl, by decide, by decide⟩
  · exact .inl ⟨'t', rfl, tab ▸ rfl, by decide, by decide⟩
  · exact .inl ⟨'b', rfl, rub ▸ rfl, by decide, by decide⟩
  · exact .inl ⟨'f', rfl, form ▸ rfl, by decide, by decide⟩
  · exact .inr (.inl ⟨rfl, control⟩)
  · rw [not_or] at marks
    exact .inr (.inr ⟨rfl, by omega, marks⟩)

/-- A character that was escaped is read as that character. -/
theorem readString?_escapeChar (c : Char) (cs : List Char) :
    readString? (escapeChar c ++ cs) = (readString? cs).map fun r => (.char c :: r.1, r.2) := by
  rcases escapeChar_cases c with ⟨letter, made, known, -, other⟩ | ⟨made, control⟩ |
    ⟨made, visible, quote, slash⟩
  · rw [made]
    exact readString?_named known other cs
  · have number : Text.readHex? (Text.hexPadded 4 c.toNat) = some c.toNat := by
      rw [Text.readHex?_hexPadded, Nat.mod_eq_of_lt (by omega)]
    have whole : isHigh c.toNat = false := by
      rw [isHigh, decide_eq_false (by omega), Bool.false_and]
    have itself : CodePoint.ofNumber c.toNat = .char c := by
      rw [CodePoint.ofNumber, dif_neg (by omega), Char.ofNat_toNat]
    have read := readString?_unicode number whole cs
    rw [itself] at read
    rw [made]
    exact read
  · rw [made]
    exact readString?_plain quote slash visible cs

/-- **A string is read as it was written.** -/
theorem readString?_string (cs rest : List Char) :
    readString? (cs.flatMap escapeChar ++ '"' :: rest) = some (cs.map .char, rest) := by
  induction cs with
  | nil => rw [List.flatMap_nil, List.nil_append, readString?, List.map_nil]
  | cons c cs ih =>
    rw [List.flatMap_cons, List.append_assoc, readString?_escapeChar, ih]
    rfl

/-! ### Numerals -/

/-- What may stand behind a numeral: nothing that could belong to it. -/
def Ends (rest : List Char) : Prop :=
  ∀ c ∈ rest.head?, c.isDigit = false ∧ c ≠ '.' ∧ c ≠ 'e' ∧ c ≠ 'E'

theorem ends_nil : Ends [] := by
  simp [Ends]

theorem ends_cons {c : Char} (stop : c ∈ [',', ']', '\x7d', '\n']) (rest : List Char) :
    Ends (c :: rest) := by
  intro d head
  obtain rfl := Option.some.inj head
  simp only [List.mem_cons, List.not_mem_nil, or_false] at stop
  rcases stop with rfl | rfl | rfl | rfl <;> decide

/-- Only zero is written with a zero in front. -/
theorem no_leading_zero {n : Nat} {ds : List Char} (zero : Number.ofNat n = '0' :: ds) :
    ds = [] := by
  have value := Number.ofDigits_ofNat n
  have digits : ∀ c ∈ ds, c.isDigit = true := fun c member =>
    Number.isDigit_of_mem_ofNat (n := n) (zero ▸ List.mem_cons_of_mem _ member)
  by_contra proper
  -- the digits behind the zero would be the number, in one digit less than it has
  have few : n < Number.tenTo ds.length := by
    have small : ∀ d ∈ ds.map fun c => c.toNat - 0x30, d ≤ 9 := by
      rw [List.forall_mem_map]
      intro c member
      have range := Lexer.range_of_isDigit (digits c member)
      omega
    have bound := Number.ofDigits_lt small
    rw [zero] at value
    calc n = Number.ofDigits (ds.map fun c => c.toNat - 0x30) := value.symm
      _ < Number.tenTo ds.length := by rwa [List.length_map] at bound
  have count : Number.digitCount n ≤ ds.length :=
    (Number.digitCount_le_iff (List.length_pos_iff.mpr proper)).mpr few
  rw [Number.digitCount, zero, List.length_cons] at count
  omega

theorem wholePart_ofNat (n : Nat) {rest : List Char} (ends : Ends rest) :
    wholePart (Number.ofNat n ++ rest) = Number.ofNat n := by
  have digits : ∀ c ∈ Number.ofNat n, c.isDigit = true := fun _ => Number.isDigit_of_mem_ofNat
  have stop : rest.takeWhile Char.isDigit = [] := by
    cases rest with
    | nil => rfl
    | cons c rest => rw [List.takeWhile_cons, (ends c rfl).1]; rfl
  have taken : (Number.ofNat n ++ rest).takeWhile Char.isDigit = Number.ofNat n := by
    rw [List.takeWhile_append_of_pos digits, stop, List.append_nil]
  unfold wholePart
  cases written : Number.ofNat n with
  | nil => exact absurd written (Number.ofNat_ne_nil n)
  | cons d ds =>
    by_cases zero : d = '0'
    · subst zero
      rw [no_leading_zero written]
      rfl
    · rw [written] at taken
      rw [if_neg (by simpa using zero), taken]

theorem readUnsigned_ofNat (negative : Bool) {n : Nat}
    (short : Number.digitCount n ≤ Number.digitLimit) {rest : List Char} (ends : Ends rest) :
    readUnsigned negative (Number.ofNat n ++ rest) =
      .ok (.int (if negative then -(n : Int) else n), rest) := by
  have fraction : fractionPart rest = [] := by
    cases rest with
    | nil => rfl
    | cons c rest => rw [fractionPart]; exact fun _ same => (ends c rfl).2.1 (List.cons.inj same).1
  have power : powerPart rest = [] := by
    cases rest with
    | nil => rfl
    | cons c rest =>
      obtain ⟨-, -, small, large⟩ := ends c rfl
      simp [powerPart, small, large]
  have proper : (Number.ofNat n).isEmpty = false :=
    List.isEmpty_eq_false_iff.mpr (Number.ofNat_ne_nil n)
  have within : ¬Number.digitLimit < (Number.ofNat n).length := Nat.not_lt.mpr short
  have value : Number.asciiValue (Number.ofNat n) = n := Number.ofDigits_ofNat n
  simp only [readUnsigned, wholePart_ofNat n ends, List.drop_left, fraction, power, proper,
    List.length_nil, Nat.add_zero, List.drop_zero, value, if_neg within, List.isEmpty_nil,
    Bool.and_self, if_true, Bool.false_eq_true, if_false]

/-- A text that goes on with a digit, after a sign or not, begins with no word. -/
theorem no_word_before_digit {sign : List Char} (short : sign.length ≤ 1) {d : Char}
    (digit : d.isDigit = true) (cs : List Char) :
    words.findSome? (fun w => (dropWord? w.1 (sign ++ d :: cs)).map fun rest => (w.2, rest)) =
      none := by
  have letters : ∀ w ∈ words, 2 ≤ w.1.toList.length ∧ w.1.toList.any Char.isDigit = false := by
    decide +kernel
  rw [List.findSome?_eq_none_iff]
  intro w known
  obtain ⟨long, plain⟩ := letters w known
  have apart : ¬w.1.toList.isPrefixOf (sign ++ d :: cs) = true := fun starts => by
    have taken : w.1.toList = (sign ++ d :: cs).take w.1.toList.length :=
      List.prefix_iff_eq_take.mp (List.isPrefixOf_iff_prefix.mp starts)
    have reaches : d ∈ (sign ++ d :: cs).take w.1.toList.length := by
      rw [List.mem_take_iff_getElem]
      exact ⟨sign.length, by simp; omega, by simp⟩
    exact List.any_eq_false.mp plain d (taken ▸ reaches) digit
  rw [dropWord?, if_neg apart, Option.map_none]

/-- **An integer is read as it was written, unless it is too long to be read.** -/
theorem readAtom_ofInt {n : Int} (short : Number.isLong n = false) {rest : List Char}
    (ends : Ends rest) : readAtom (Number.ofInt n ++ rest) = .ok (.int n, rest) := by
  have few : Number.digitCount n.natAbs ≤ Number.digitLimit := by
    simpa [Number.isLong] using short
  obtain ⟨d, ds, written⟩ := List.exists_cons_of_ne_nil (Number.ofNat_ne_nil n.natAbs)
  have digit : d.isDigit = true :=
    Number.isDigit_of_mem_ofNat (n := n.natAbs) (written ▸ List.mem_cons_self)
  unfold Number.ofInt readAtom
  by_cases negative : n < 0
  · have read := readUnsigned_ofNat true few ends
    have same : -(n.natAbs : Int) = n := by omega
    rw [written, List.cons_append, if_pos rfl, same] at read
    have short : ['-'].length ≤ 1 := Nat.le_refl 1
    have wordless := no_word_before_digit short digit (ds ++ rest)
    rw [List.singleton_append] at wordless
    rw [if_pos negative, written, List.cons_append, List.cons_append, wordless]
    exact read
  · have read := readUnsigned_ofNat false few ends
    have same : (n.natAbs : Int) = n := by omega
    rw [written, List.cons_append, if_neg Bool.false_ne_true, same] at read
    have short : ([] : List Char).length ≤ 1 := Nat.zero_le 1
    have wordless := no_word_before_digit short digit (ds ++ rest)
    rw [List.nil_append] at wordless
    rw [if_neg negative, written, List.cons_append, wordless]
    dsimp only
    split
    · next begins => exact absurd (List.cons.inj begins).1 (Text.ne_of_isDigit digit rfl)
    · exact read

end Json

end Stencil
