/-
# Lexemes

Inside a tag a token is written as a name, a numeral, a text between quotes, a
closing delimiter or an operator, and it is as long as it can be. How it is
written and what follows decide what it is, and of what follows no more than
two characters count. So a token stays what it is when what follows it gives
way to something else that begins with the same two characters, with a blank,
or with the same character and a blank.

Key definitions: `TokenKind.modeAfter`, `Lexer.Lexeme`, `Lexer.Settles`.
Key theorems: `Lexer.nextAhead_of_lexeme`, `Lexer.exists_lexeme`, `Lexer.Lexeme.follow`.
-/
import Stencil.Lexer

namespace Stencil

/-- The mode that a token leaves the lexer in: between tags after text and after the end of a tag,
inside a tag after any other. -/
def TokenKind.modeAfter : TokenKind → Mode
  | .text => .text
  | .variableEnd => .text
  | .tagEnd => .text
  | _ => .expression

/-- The mode that a token is found in. -/
def TokenKind.modeBefore : TokenKind → Mode
  | .text => .text
  | .variableStart => .text
  | .tagStart => .text
  | _ => .expression

namespace Text

theorem isBlank_of_range {c : Char} (low : 0x21 ≤ c.toNat) (high : c.toNat < 0x85) :
    isBlank c = false := by
  unfold isBlank blankBounds
  rw [within_of_le _ (by omega), within_of_le _ (by omega), within_of_le _ (by omega),
    within_of_le _ (by omega), within_of_lt _ (by omega)]
  rfl

theorem isLetter_of_ascii {c : Char} (h : c.toNat < 0x80) : isLetter c = c.isAlpha := by
  rw [isLetter, if_pos h]

theorem isDigit_of_ascii {c : Char} (h : c.toNat < 0x80) : isDigit c = c.isDigit := by
  rw [isDigit, if_pos h]

end Text

namespace Lexer

/-! ### Characters -/

theorem range_of_isDigit {c : Char} (h : c.isDigit = true) : 0x30 ≤ c.toNat ∧ c.toNat ≤ 0x39 := by
  simp only [Char.isDigit, Bool.and_eq_true, decide_eq_true_eq, UInt32.le_iff_toNat_le,
    ge_iff_le] at h
  exact h

theorem isAlpha_iff {c : Char} :
    c.isAlpha = true ↔ (0x41 ≤ c.toNat ∧ c.toNat ≤ 0x5a) ∨ (0x61 ≤ c.toNat ∧ c.toNat ≤ 0x7a) := by
  have cases : c.isAlpha = (decide (c.val ≥ 'A'.val ∧ c.val ≤ 'Z'.val) ||
      (decide (c.val ≥ 'a'.val) && decide (c.val ≤ 'z'.val))) := rfl
  rw [cases, Bool.or_eq_true, Bool.and_eq_true, decide_eq_true_eq, decide_eq_true_eq,
    decide_eq_true_eq]
  exact Iff.rfl

theorem range_of_isWordChar {c : Char} (h : isWordChar c = true) :
    0x30 ≤ c.toNat ∧ c.toNat < 0x80 := by
  have cases : isWordChar c = (c.isAlpha || c.isDigit || decide (c = '_')) := rfl
  rw [cases, Bool.or_eq_true, Bool.or_eq_true, decide_eq_true_eq] at h
  rcases h with (letter | digit) | rfl
  · have := isAlpha_iff.mp letter
    omega
  · have := range_of_isDigit digit
    omega
  · decide

theorem isBlank_of_isWordChar {c : Char} (h : isWordChar c = true) : Text.isBlank c = false := by
  have := range_of_isWordChar h
  exact Text.isBlank_of_range (by omega) (by omega)

theorem isWordChar_of_isDigit {c : Char} (h : c.isDigit = true) : isWordChar c = true := by
  simp [isWordChar, Char.isAlphanum, h]

theorem isAlpha_of_isDigit {c : Char} (h : c.isDigit = true) : c.isAlpha = false := by
  have range := range_of_isDigit h
  rw [← Bool.not_eq_true, isAlpha_iff]
  omega

/-- A character that a name begins with. -/
def startsName (c : Char) : Bool :=
  (Text.isLetter c || c = '_') && c.toNat < 0x80

/-- A character beyond ASCII where a name or a numeral would begin. -/
def isStray (c : Char) : Bool :=
  (Text.isLetter c || Text.isDigit c) && !(c.toNat < 0x80)

def isQuote (c : Char) : Bool :=
  c = '"' || c = '\''

/-- A character that is a token of its own, unless it makes one with the next character. -/
def isSymbol (c : Char) : Bool :=
  !(Text.isLetter c || c = '_' || Text.isDigit c || isQuote c || c = '|' || Text.isBlank c)

theorem isWordChar_of_startsName {c : Char} (h : startsName c = true) : isWordChar c = true := by
  simp only [startsName, Bool.and_eq_true, Bool.or_eq_true, decide_eq_true_eq] at h
  rcases h with ⟨letter | rfl, ascii⟩
  · rw [Text.isLetter_of_ascii ascii] at letter
    simp [isWordChar, Char.isAlphanum, letter]
  · decide

/-- A digit does not begin a name. -/
theorem not_letter_of_isDigit {c : Char} (h : c.isDigit = true) :
    (Text.isLetter c || decide (c = '_')) = false := by
  have range := range_of_isDigit h
  rw [Text.isLetter_of_ascii (by omega), isAlpha_of_isDigit h, Bool.false_or, decide_eq_false_iff_not]
  rintro rfl
  exact absurd h (by decide)

/-! ### Names and numerals -/

/-- A run of characters in a set ends where one outside of it stands. -/
theorem span_of {p : Char → Bool} {x y : List Char} (all : ∀ c ∈ x, p c = true)
    (stop : y.head?.any p = false) :
    (x ++ y).takeWhile p = x ∧ (x ++ y).dropWhile p = y := by
  rw [List.takeWhile_append_of_pos all, List.dropWhile_append_of_pos all]
  cases y with
  | nil => exact ⟨List.append_nil x, rfl⟩
  | cons c y =>
    have outside : ¬p c = true := by
      rw [List.head?_cons, Option.any_some] at stop
      rw [stop]
      exact Bool.false_ne_true
    exact ⟨by rw [List.takeWhile_cons_of_neg outside, List.append_nil],
      List.dropWhile_cons_of_neg outside⟩

theorem all_takeWhile (p : Char → Bool) (cs : List Char) : ∀ x ∈ cs.takeWhile p, p x = true :=
  List.all_eq_true.mp List.all_takeWhile

theorem head?_dropWhile (p : Char → Bool) (cs : List Char) :
    (cs.dropWhile p).head?.any p = false := by
  have h := List.head?_dropWhile_not p cs
  cases first : (cs.dropWhile p).head? with
  | none => rfl
  | some c =>
    rw [first] at h
    exact h

/-- Whether a name or a numeral goes on: with a character of its own, or with a point and such a
character after it. -/
def continues (p : Char → Bool) : List Char → Bool
  | [] => false
  | c :: cs => p c || (c = '.' && cs.head?.any p)

theorem nameTail_of_stop {cs : List Char} (h : continues isWordChar cs = false) :
    nameTail cs = ([], cs) := by
  cases cs with
  | nil => rfl
  | cons c cs =>
    simp only [continues, Bool.or_eq_false_iff] at h
    rw [nameTail, if_neg (by simp [h.1])]
    cases cs with
    | nil => simp
    | cons d cs => rw [if_neg (by simpa using h.2)]

theorem nameTail_of_continues {c : Char} {cs : List Char}
    (h : continues isWordChar (c :: cs) = true) :
    nameTail (c :: cs) = (c :: (nameTail cs).1, (nameTail cs).2) := by
  simp only [continues, Bool.or_eq_true] at h
  rw [nameTail]
  by_cases word : isWordChar c = true
  · rw [if_pos word]
  · have point := h.resolve_left word
    rw [if_neg word]
    cases cs with
    | nil => simp at point
    | cons d cs => rw [if_pos (by simpa using point)]

/-- The rest of a name and what is left after it are the text. -/
theorem nameTail_split (cs : List Char) : (nameTail cs).1 ++ (nameTail cs).2 = cs := by
  induction cs with
  | nil => rfl
  | cons c cs ih =>
    cases h : continues isWordChar (c :: cs) with
    | false => rw [nameTail_of_stop h, List.nil_append]
    | true => rw [nameTail_of_continues h, List.cons_append, ih]

/-- A name ends where it cannot go on. -/
theorem nameTail_stop (cs : List Char) : continues isWordChar (nameTail cs).2 = false := by
  induction cs with
  | nil => rfl
  | cons c cs ih =>
    cases h : continues isWordChar (c :: cs) with
    | false =>
      rw [nameTail_of_stop h]
      exact h
    | true =>
      rw [nameTail_of_continues h]
      exact ih

/-- A name stays what it is if what follows it does not go on with it either. -/
theorem nameTail_follow {tail y z : List Char} (h : nameTail (tail ++ y) = (tail, y))
    (stop : continues isWordChar z = false) : nameTail (tail ++ z) = (tail, z) := by
  induction tail with
  | nil => exact nameTail_of_stop stop
  | cons c tail ih =>
    cases goes : continues isWordChar (c :: (tail ++ y)) with
    | false =>
      rw [List.cons_append, nameTail_of_stop goes] at h
      cases h
    | true =>
      rw [List.cons_append, nameTail_of_continues goes, Prod.mk.injEq, List.cons.injEq] at h
      have inner : nameTail (tail ++ y) = (tail, y) := Prod.ext h.1.2 h.2
      have goes' : continues isWordChar (c :: (tail ++ z)) = true := by
        cases tail with
        | nil =>
          -- A point at the end of a name would have to be followed by a part of the name.
          have stopped : y.head?.any isWordChar = false := by
            have ends := nameTail_stop ([] ++ y)
            rw [inner] at ends
            cases y with
            | nil => rfl
            | cons d y =>
              simp only [continues, Bool.or_eq_false_iff] at ends
              exact ends.1
          rw [List.nil_append, continues, stopped, Bool.and_false, Bool.or_false] at goes
          rw [List.nil_append, continues, goes, Bool.true_or]
        | cons d tail => exact goes
      rw [List.cons_append, nameTail_of_continues goes', ih inner]

/-- A numeral and what follows it. -/
inductive Numeral : List Char → List Char → Prop
  | whole {ds y : List Char} (digits : ∀ d ∈ ds, d.isDigit = true)
    (stop : continues Char.isDigit y = false) : Numeral ds y
  | fraction {ds fs y : List Char} (digits : ∀ d ∈ ds, d.isDigit = true)
    (more : ∀ d ∈ fs, d.isDigit = true) (some : fs ≠ []) (stop : y.head?.any Char.isDigit = false) :
    Numeral (ds ++ '.' :: fs) y

theorem numeral_eq {x y : List Char} (h : Numeral x y) : numeral (x ++ y) = (x, y) := by
  cases h with
  | whole digits stop =>
    have ends : y.head?.any Char.isDigit = false := by
      cases y with
      | nil => rfl
      | cons c y =>
        simp only [continues, Bool.or_eq_false_iff] at stop
        exact stop.1
    obtain ⟨taken, left⟩ := span_of digits ends
    unfold numeral
    rw [taken, left]
    split
    · next more =>
      have none : more.head?.any Char.isDigit = false := by simpa [continues] using stop
      have empty : more.takeWhile Char.isDigit = [] := (span_of (List.forall_mem_nil _) none).1
      rw [empty]
      rfl
    · rfl
  | @fraction ds fs y digits more some stop =>
    obtain ⟨taken, left⟩ := span_of (y := '.' :: (fs ++ y)) digits rfl
    obtain ⟨taken', left'⟩ := span_of more stop
    unfold numeral
    rw [List.append_assoc, List.cons_append, taken, left]
    simp only [taken', left']
    rw [if_neg (by simpa using some)]

theorem numeral_cases (cs : List Char) : ∃ x y, cs = x ++ y ∧ Numeral x y := by
  have whole := all_takeWhile Char.isDigit cs
  have stop := head?_dropWhile Char.isDigit cs
  by_cases point : continues Char.isDigit (cs.dropWhile Char.isDigit) = true
  · cases left : cs.dropWhile Char.isDigit with
    | nil =>
      rw [left] at point
      cases point
    | cons c more =>
      rw [left] at point stop
      rw [List.head?_cons, Option.any_some] at stop
      rw [continues, stop, Bool.false_or, Bool.and_eq_true, decide_eq_true_eq] at point
      obtain ⟨rfl, goes⟩ := point
      refine ⟨_, _, ?_, .fraction whole (all_takeWhile Char.isDigit more) ?_
        (head?_dropWhile Char.isDigit more)⟩
      · rw [List.append_assoc, List.cons_append, List.takeWhile_append_dropWhile, ← left,
          List.takeWhile_append_dropWhile]
      · cases more with
        | nil => cases goes
        | cons d more =>
          rw [List.head?_cons, Option.any_some] at goes
          rw [List.takeWhile_cons_of_pos goes]
          exact List.cons_ne_nil _ _
  · exact ⟨_, _, List.takeWhile_append_dropWhile.symm, .whole whole (by simpa using point)⟩

/-! ### What follows -/

/-- What follows a token may give way to something else that begins with the same two characters,
or with a blank, or with the same character and a blank. The end counts as a blank here. -/
def Settles (y z : List Char) : Prop :=
  z.head?.all Text.isBlank = true ∨
    z.head? = y.head? ∧ (z.tail.head?.all Text.isBlank = true ∨ z.tail.head? = y.tail.head?)

theorem Settles.head {y z : List Char} (h : Settles y z) :
    z.head?.all Text.isBlank = true ∨ z.head? = y.head? :=
  h.imp_right And.left

/-- The same characters in front of what gives way. -/
theorem Settles.append {y z : List Char} (h : Settles y z) (cs : List Char) :
    Settles (cs ++ y) (cs ++ z) := by
  match cs with
  | [] => exact h
  | [_] => exact .inr ⟨rfl, h.head⟩
  | _ :: _ :: _ => exact .inr ⟨rfl, .inr rfl⟩

theorem not_wordChar_of_isBlank {c : Char} (blank : Text.isBlank c = true) :
    isWordChar c = false := by
  cases word : isWordChar c with
  | false => rfl
  | true =>
    rw [isBlank_of_isWordChar word] at blank
    cases blank

theorem not_digit_of_isBlank {c : Char} (blank : Text.isBlank c = true) : c.isDigit = false := by
  cases digit : c.isDigit with
  | false => rfl
  | true =>
    have word := not_wordChar_of_isBlank blank
    rw [isWordChar_of_isDigit digit] at word
    cases word

/-- What begins with a blank does not begin with a character from a set without blanks. -/
theorem any_of_all_isBlank {p : Char → Bool} (noBlank : ∀ c, Text.isBlank c = true → p c = false)
    {o : Option Char} (h : o.all Text.isBlank = true) : o.any p = false := by
  cases o with
  | none => rfl
  | some c => exact noBlank c h

/-- A name or a numeral that has ended does not go on with what settles it. -/
theorem Settles.continues {p : Char → Bool} (noBlank : ∀ c, Text.isBlank c = true → p c = false)
    {y z : List Char} (h : Settles y z) (stop : continues p y = false) :
    continues p z = false := by
  cases z with
  | nil => rfl
  | cons c z =>
    rcases h with blank | ⟨same, next⟩
    · have noPoint : c ≠ '.' := by
        rintro rfl
        have : Text.isBlank '.' = true := blank
        exact absurd this (by decide)
      rw [Lexer.continues, noBlank c blank, decide_eq_false noPoint]
      rfl
    · obtain ⟨y, rfl⟩ : ∃ tail, y = c :: tail := List.head?_eq_some_iff.mp same.symm
      rw [Lexer.continues, Bool.or_eq_false_iff] at stop ⊢
      refine ⟨stop.1, ?_⟩
      rcases next with blank | same
      · rw [List.tail_cons] at blank
        rw [any_of_all_isBlank noBlank blank, Bool.and_false]
      · rw [List.tail_cons, List.tail_cons] at same
        rw [same, stop.2]

theorem Settles.numeral {x y z : List Char} (h : Settles y z) (numeral : Numeral x y) :
    Numeral x z := by
  cases numeral with
  | whole digits stop => exact .whole digits (h.continues (fun _ => not_digit_of_isBlank) stop)
  | fraction digits more some stop =>
    refine .fraction digits more some ?_
    rcases h.head with blank | same
    · exact any_of_all_isBlank (fun _ => not_digit_of_isBlank) blank
    · rw [same, stop]

/-! ### Tokens inside a tag -/

/-- The pairs of characters that make one token. -/
def pairs : List (List Char) :=
  ['\x7d', '\x7d'] :: ['%', '\x7d'] :: pairedOperators

/-- A token inside a tag: its kind, its value, how it is written, and what follows. -/
inductive Lexeme : TokenKind → String → List Char → List Char → Prop
  | variableEnd {y : List Char} : Lexeme .variableEnd "\x7d\x7d" ['\x7d', '\x7d'] y
  | tagEnd {y : List Char} : Lexeme .tagEnd "%\x7d" ['%', '\x7d'] y
  | name {c : Char} {tail y : List Char} (first : startsName c = true)
    (stop : nameTail (tail ++ y) = (tail, y)) :
    Lexeme (wordKind (String.ofList (c :: tail))) (String.ofList (c :: tail)) (c :: tail) y
  | number {c : Char} {ds y : List Char} (first : c.isDigit = true) (digits : Numeral (c :: ds) y) :
    Lexeme .number (String.ofList (c :: ds)) (c :: ds) y
  | string {quote : Char} {value y : List Char} (known : isQuote quote = true)
    (inside : quote ∉ value) :
    Lexeme .string (String.ofList value) (quote :: value ++ [quote]) y
  | pipe {y : List Char} : Lexeme .pipe "|" ['|'] y
  | paired {c d : Char} {y : List Char} (known : [c, d] ∈ pairedOperators) :
    Lexeme .operator (String.ofList [c, d]) [c, d] y
  | single {c : Char} {y : List Char} (symbol : isSymbol c = true)
    (alone : ∀ d ∈ y.head?, [c, d] ∉ pairs) :
    Lexeme .operator (String.ofList [c]) [c] y

/-- **A token stays what it is** if what follows it gives way to what settles it. -/
theorem Lexeme.follow {kind : TokenKind} {value : String} {x y z : List Char}
    (lex : Lexeme kind value x y) (h : Settles y z) : Lexeme kind value x z := by
  cases lex with
  | variableEnd => exact .variableEnd
  | tagEnd => exact .tagEnd
  | @name c tail _ first stop =>
    refine .name first (nameTail_follow stop (h.continues (fun _ => not_wordChar_of_isBlank) ?_))
    have ends := nameTail_stop (tail ++ y)
    rwa [stop] at ends
  | number first digits => exact .number first (h.numeral digits)
  | string known inside => exact .string known inside
  | pipe => exact .pipe
  | paired known => exact .paired known
  | single symbol alone =>
    refine .single symbol fun d hd pair => ?_
    rcases h.head with blank | same
    · rw [hd] at blank
      have : Text.isBlank d = true := blank
      simp only [pairs, pairedOperators, List.mem_cons, List.cons.injEq, and_true,
        List.not_mem_nil, or_false] at pair
      rcases pair with ⟨-, rfl⟩ | ⟨-, rfl⟩ | ⟨-, rfl⟩ | ⟨-, rfl⟩ | ⟨-, rfl⟩ | ⟨-, rfl⟩ <;>
        exact absurd this (by decide)
    · exact alone d (same ▸ hd) pair

variable {s : Lexer}

/-- Ahead of what neither ends the source nor a tag the first character decides. -/
theorem nextAhead_of_startsName {c : Char} {rest : List Char} (h : s.rest = c :: rest)
    (first : startsName c = true) :
    s.nextAhead = s.lexeme (wordKind (String.ofList (c :: (nameTail rest).1)))
      (c :: (nameTail rest).1) (nameTail rest).2 := by
  have facts := first
  rw [startsName, Bool.and_eq_true, decide_eq_true_eq] at facts
  unfold nextAhead
  rw [h]
  split
  · next e => cases e
  · next e =>
    cases e
    exact absurd first (by decide)
  · next e =>
    cases e
    exact absurd first (by decide)
  · next e =>
    cases e
    rw [if_pos facts.1, if_pos facts.2]

theorem nextAhead_of_isDigit {c : Char} {rest : List Char} (h : s.rest = c :: rest)
    (first : c.isDigit = true) :
    s.nextAhead = s.lexeme .number (numeral (c :: rest)).1 (numeral (c :: rest)).2 := by
  have ascii : c.toNat < 0x80 := by
    have := range_of_isDigit first
    omega
  have digit : Text.isDigit c = true := by rw [Text.isDigit_of_ascii ascii, first]
  unfold nextAhead
  rw [h]
  split
  · next e => cases e
  · next e =>
    cases e
    exact absurd first (by decide)
  · next e =>
    cases e
    exact absurd first (by decide)
  · next e =>
    cases e
    rw [if_neg (by rw [not_letter_of_isDigit first]; exact Bool.false_ne_true), if_pos digit,
      if_pos ascii]

theorem nextAhead_of_isQuote {c : Char} {rest : List Char} (h : s.rest = c :: rest)
    (first : isQuote c = true) :
    s.nextAhead =
      match rest.dropWhile (· ≠ c) with
      | [] => (.error (Failure.onLine .unterminatedString s.line), s)
      | _ :: after =>
        (.ok ⟨.string, String.ofList (rest.takeWhile (· ≠ c)), s.line⟩,
          s.advance (c :: rest.takeWhile (· ≠ c) ++ [c]) after) := by
  rw [isQuote, Bool.or_eq_true, decide_eq_true_eq, decide_eq_true_eq] at first
  unfold nextAhead
  rw [h]
  rcases first with rfl | rfl
  · split
    · next e => cases e
    · next e => cases e
    · next e => cases e
    · next e =>
      cases e
      exact (if_neg (by decide)).trans ((if_neg (by decide)).trans (if_pos (by decide)))
  · split
    · next e => cases e
    · next e => cases e
    · next e => cases e
    · next e =>
      cases e
      exact (if_neg (by decide)).trans ((if_neg (by decide)).trans (if_pos (by decide)))

theorem nextAhead_of_bar {rest : List Char} (h : s.rest = '|' :: rest) :
    s.nextAhead = s.lexeme .pipe ['|'] rest := by
  unfold nextAhead
  rw [h]
  rfl

theorem nextAhead_of_paired {c d : Char} {rest : List Char} (h : s.rest = c :: d :: rest)
    (known : [c, d] ∈ pairedOperators) : s.nextAhead = s.lexeme .operator [c, d] rest := by
  simp only [pairedOperators, List.mem_cons, List.cons.injEq, and_true, List.not_mem_nil,
    or_false] at known
  unfold nextAhead
  rw [h]
  rcases known with ⟨rfl, rfl⟩ | ⟨rfl, rfl⟩ | ⟨rfl, rfl⟩ | ⟨rfl, rfl⟩ <;> rfl

theorem nextAhead_of_single {c : Char} {rest : List Char} (h : s.rest = c :: rest)
    (symbol : isSymbol c = true) (alone : ∀ d ∈ rest.head?, [c, d] ∉ pairs) :
    s.nextAhead = s.lexeme .operator [c] rest := by
  simp only [isSymbol, isQuote, Bool.not_eq_true', Bool.or_eq_false_iff] at symbol
  obtain ⟨⟨⟨⟨noLetter, noDigit⟩, noQuote⟩, noBar⟩, -⟩ := symbol
  unfold nextAhead
  rw [h]
  split
  · next e => cases e
  · next e =>
    cases e
    exact absurd (by decide) (alone '\x7d' rfl)
  · next e =>
    cases e
    exact absurd (by decide) (alone '\x7d' rfl)
  · next e =>
    cases e
    rw [if_neg (by simp [noLetter]), if_neg (by simp [noDigit]), if_neg (by simp [noQuote]),
      if_neg (by simpa using noBar)]
    cases rest with
    | nil => rfl
    | cons d rest =>
      refine if_neg fun known => alone d rfl ?_
      exact List.mem_cons_of_mem _ (List.mem_cons_of_mem _ (List.contains_iff_mem.mp known))

theorem lexeme_inside {kind : TokenKind} {cs rest : List Char} (inside : s.mode = .expression) :
    s.lexeme kind cs rest =
      (.ok ⟨kind, String.ofList cs, s.line⟩, { s.advance cs rest with mode := .expression }) := by
  rw [lexeme, ← inside]
  rfl

theorem modeAfter_wordKind (word : String) : (wordKind word).modeAfter = .expression := by
  unfold wordKind
  split <;> rfl

/-- **A lexeme is read as its token.** -/
theorem nextAhead_of_lexeme {kind : TokenKind} {value : String} {x y : List Char}
    (lex : Lexeme kind value x y) (inside : s.mode = .expression) (rest : s.rest = x ++ y) :
    s.nextAhead =
      (.ok ⟨kind, value, s.line⟩, { s.advance x y with mode := kind.modeAfter }) := by
  cases lex with
  | variableEnd =>
    unfold nextAhead
    rw [rest]
    rfl
  | tagEnd =>
    unfold nextAhead
    rw [rest]
    rfl
  | name first stop =>
    rw [List.cons_append] at rest
    rw [nextAhead_of_startsName rest first, stop, lexeme_inside inside, modeAfter_wordKind]
  | number first digits =>
    have read := numeral_eq digits
    rw [List.cons_append] at rest read
    rw [nextAhead_of_isDigit rest first, read, lexeme_inside inside]
    rfl
  | @string quote value _ known closed =>
    have others : ∀ c ∈ value, decide (c ≠ quote) = true := fun c hc =>
      decide_eq_true fun same => closed (same ▸ hc)
    obtain ⟨taken, left⟩ := span_of (y := quote :: y) others (by simp)
    rw [List.cons_append, List.cons_append, List.append_assoc, List.singleton_append] at rest
    rw [nextAhead_of_isQuote rest known, left, taken]
    simp only [advance, inside]
    rfl
  | pipe =>
    rw [nextAhead_of_bar rest, lexeme_inside inside]
    rfl
  | paired known =>
    rw [nextAhead_of_paired rest known, lexeme_inside inside]
    rfl
  | single symbol alone =>
    rw [nextAhead_of_single rest symbol alone, lexeme_inside inside]
    rfl

/-- Where no token stands inside a tag, and the failure on a line. -/
inductive Stuck : List Char → (Nat → Failure) → Prop
  | stray {c : Char} {rest : List Char} (strange : isStray c = true) :
    Stuck (c :: rest) fun _ => .fault .strayCharacter
  | string {quote : Char} {rest : List Char} (known : isQuote quote = true) (inside : quote ∉ rest) :
    Stuck (quote :: rest) (Failure.onLine .unterminatedString)

theorem nextAhead_of_stuck {failure : Nat → Failure} (stuck : Stuck s.rest failure) :
    s.nextAhead = (.error (failure s.line), s) := by
  cases h : s.rest with
  | nil => 
    rw [h] at stuck
    cases stuck
  | cons c rest =>
    rw [h] at stuck
    cases stuck with
    | stray strange =>
      rw [isStray, Bool.and_eq_true, Bool.not_eq_true', decide_eq_false_iff_not] at strange
      obtain ⟨first, beyond⟩ := strange
      unfold nextAhead
      rw [h]
      split
      · next e => cases e
      · next e =>
        cases e
        exact absurd (by decide) beyond
      · next e =>
        cases e
        exact absurd (by decide) beyond
      · next e =>
        cases e
        by_cases letter : (Text.isLetter c || decide (c = '_')) = true
        · rw [if_pos letter, if_neg beyond]
        · have digit : Text.isDigit c = true := by
            rw [Bool.or_eq_true] at letter first
            exact first.resolve_left fun l => letter (.inl l)
          rw [if_neg letter, if_pos digit, if_neg beyond]
    | string known inside =>
      have others : ∀ c' ∈ rest, decide (c' ≠ c) = true := fun c' hc =>
        decide_eq_true fun same => inside (same ▸ hc)
      have left := (span_of (y := []) others rfl).2
      rw [List.append_nil] at left
      rw [nextAhead_of_isQuote h known, left]

/-- A numeral that a digit begins. -/
theorem exists_numeral {c : Char} (rest : List Char) (digit : c.isDigit = true) :
    ∃ ds y, rest = ds ++ y ∧ Numeral (c :: ds) y := by
  obtain ⟨x, y, split, digits⟩ := numeral_cases (c :: rest)
  cases same : x with
  | nil =>
    cases digits with
    | whole _ stop =>
      rw [same, List.nil_append] at split
      rw [← split, continues, digit, Bool.true_or] at stop
      cases stop
    | fraction => simp at same
  | cons d ds =>
    subst same
    rw [List.cons_append, List.cons.injEq] at split
    obtain ⟨rfl, rfl⟩ := split
    exact ⟨ds, y, rfl, digits⟩

/-- What a quote begins: a text up to the next quote of its kind, or nothing at all. -/
theorem quoted_cases (quote : Char) (rest : List Char) :
    (∃ value y, rest = value ++ quote :: y ∧ quote ∉ value) ∨ quote ∉ rest := by
  have others := all_takeWhile (fun c => decide (c ≠ quote)) rest
  have stop := head?_dropWhile (fun c => decide (c ≠ quote)) rest
  have absent : quote ∉ rest.takeWhile (fun c => decide (c ≠ quote)) := fun member =>
    of_decide_eq_true (others quote member) rfl
  have split := List.takeWhile_append_dropWhile (p := fun c => decide (c ≠ quote)) (l := rest)
  cases left : rest.dropWhile (fun c => decide (c ≠ quote)) with
  | nil =>
    rw [left, List.append_nil] at split
    exact .inr (split ▸ absent)
  | cons d y =>
    rw [left] at split stop
    have same : d = quote := by simpa using stop
    exact .inl ⟨_, y, same ▸ split.symm, absent⟩

/-- **Ahead of a character that is no blank stands a token, or nothing that could be one.** -/
theorem exists_lexeme (c : Char) (rest : List Char) (ahead : Text.isBlank c = false) :
    (∃ kind value x y, c :: rest = x ++ y ∧ Lexeme kind value x y) ∨
      ∃ failure, Stuck (c :: rest) failure := by
  by_cases name : startsName c = true
  · refine .inl ⟨_, _, c :: (nameTail rest).1, (nameTail rest).2, ?_, .name name ?_⟩
    · rw [List.cons_append, nameTail_split]
    · rw [nameTail_split]
  by_cases digit : c.isDigit = true
  · obtain ⟨ds, y, rfl, digits⟩ := exists_numeral rest digit
    exact .inl ⟨_, _, c :: ds, y, rfl, .number digit digits⟩
  by_cases stray : isStray c = true
  · exact .inr ⟨_, .stray stray⟩
  by_cases quote : isQuote c = true
  · rcases quoted_cases c rest with ⟨value, y, rfl, closed⟩ | absent
    · refine .inl ⟨_, _, c :: value ++ [c], y, ?_, .string quote closed⟩
      rw [List.cons_append, List.cons_append, List.append_assoc, List.singleton_append]
    · exact .inr ⟨_, .string quote absent⟩
  by_cases bar : c = '|'
  · subst bar
    exact .inl ⟨_, _, ['|'], rest, rfl, .pipe⟩
  have symbol : isSymbol c = true := by
    have noLetter : (Text.isLetter c || decide (c = '_')) = false ∧ Text.isDigit c = false := by
      by_cases ascii : c.toNat < 0x80
      · rw [Text.isDigit_of_ascii ascii]
        simpa [startsName, ascii] using And.intro name digit
      · have : c ≠ '_' := by
          rintro rfl
          exact ascii (by decide)
        simpa [isStray, ascii, this] using stray
    simp only [isSymbol, noLetter.1, noLetter.2, quote, bar, ahead]
    decide
  by_cases alone : ∀ d ∈ rest.head?, [c, d] ∉ pairs
  · exact .inl ⟨_, _, [c], rest, rfl, .single symbol alone⟩
  · obtain ⟨d, hd, pair⟩ : ∃ d ∈ rest.head?, [c, d] ∈ pairs := by simpa using alone
    obtain ⟨y, rfl⟩ : ∃ y, rest = d :: y := List.head?_eq_some_iff.mp hd
    rw [pairs, List.mem_cons, List.mem_cons] at pair
    rcases pair with closer | closer | known
    · cases closer
      exact .inl ⟨_, _, ['\x7d', '\x7d'], y, rfl, .variableEnd⟩
    · cases closer
      exact .inl ⟨_, _, ['%', '\x7d'], y, rfl, .tagEnd⟩
    · exact .inl ⟨_, _, [c, d], y, rfl, .paired known⟩

end Lexer

end Stencil
