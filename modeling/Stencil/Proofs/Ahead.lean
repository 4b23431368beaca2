/-
# What stands ahead of the lexer

What a read gives depends on the mode and on what is left of the source alone;
the line and the position only go into what is reported. So a read is told by
what it comes upon: a token, with what is skipped in front of it and what is
left behind it, or the end, or something that is no token.

Key definitions: `Lexer.Sight`, `Lexer.Ahead`.
Key theorems: `Lexer.next_of_ahead`, `Lexer.exists_ahead`.
-/
import Stencil.Proofs.Lexemes
import Stencil.Proofs.Passage

namespace Stencil
namespace Lexer

/-- What a read comes upon, in front of which some characters are skipped. -/
inductive Sight where
  /-- A token as it is written, and what is left behind it. -/
  | token (skipped : List Char) (kind : TokenKind) (value : String) (written rest : List Char)
  /-- The end of the source. -/
  | finish (skipped : List Char)
  /-- Something that is no token. -/
  | stuck (skipped : List Char) (failure : Nat → Failure) (rest : List Char)

namespace Sight

/-- What a read passes. -/
def passed : Sight → List Char
  | token skipped _ _ written _ => skipped ++ written
  | finish skipped => skipped
  | stuck skipped _ _ => skipped

/-- What a read leaves. -/
def rest : Sight → List Char
  | token _ _ _ _ rest => rest
  | finish _ => []
  | stuck _ _ rest => rest

end Sight

/-- What a lexer gives that comes upon something. -/
def Sight.result (s : Lexer) : Sight → Except Failure Token × Lexer
  | .token skipped kind value written rest =>
    (.ok ⟨kind, value, s.line + newlines skipped⟩,
      { s.advance (skipped ++ written) rest with mode := kind.modeAfter })
  | .finish skipped => (.ok ⟨.eof, "", s.line + newlines skipped⟩, s.advance skipped [])
  | .stuck skipped failure rest =>
    (.error (failure (s.line + newlines skipped)), s.advance skipped rest)

/-- The kind of the delimiter that begins a tag. -/
def openingKind (c : Char) : TokenKind :=
  if c = '\x7b' then .variableStart else .tagStart

/-- What stands ahead, by mode. -/
inductive Ahead : Mode → List Char → Sight → Prop
  | text {cs : List Char} {r : Region} (passes : Passes cs r) (closed : r.unterminated = false)
    (some : r.text ≠ []) :
    Ahead .text cs (.token [] .text (String.ofList r.text) r.passed r.rest)
  | opening {cs rest : List Char} {r : Region} {c : Char} (passes : Passes cs r)
    (closed : r.unterminated = false) (none : r.text = []) (found : r.rest = '\x7b' :: c :: rest) :
    Ahead .text cs (.token r.passed (openingKind c) (String.ofList ['\x7b', c]) ['\x7b', c] rest)
  | textEnd {cs : List Char} {r : Region} (passes : Passes cs r) (closed : r.unterminated = false)
    (none : r.text = []) (ended : r.rest = []) : Ahead .text cs (.finish r.passed)
  | unterminated {cs : List Char} {r : Region} (passes : Passes cs r)
    (unclosed : r.unterminated = true) :
    Ahead .text cs (.stuck r.passed (Failure.onLine .unterminatedComment) r.rest)
  | lexeme {blanks x y : List Char} {kind : TokenKind} {value : String}
    (blank : ∀ c ∈ blanks, Text.isBlank c = true) (lex : Lexeme kind value x y) :
    Ahead .expression (blanks ++ (x ++ y)) (.token blanks kind value x y)
  | tagUnclosed {blanks : List Char} (blank : ∀ c ∈ blanks, Text.isBlank c = true) :
    Ahead .expression blanks (.finish blanks)
  | stuck {blanks rest : List Char} {failure : Nat → Failure}
    (blank : ∀ c ∈ blanks, Text.isBlank c = true) (stuck : Stuck rest failure)
    (first : rest.head?.any Text.isBlank = false) :
    Ahead .expression (blanks ++ rest) (.stuck blanks failure rest)

theorem newlines_append (cs ds : List Char) : newlines (cs ++ ds) = newlines cs + newlines ds :=
  List.count_append

theorem advance_nil (s : Lexer) : s.advance [] s.rest = s := by
  simp [advance, newlines]

theorem advance_advance (s : Lexer) (xs ys rest rest' : List Char) :
    (s.advance xs rest').advance ys rest = s.advance (xs ++ ys) rest := by
  simp only [advance, List.length_append, newlines_append, Nat.add_assoc]

theorem Lexeme.head {kind : TokenKind} {value : String} {x y : List Char}
    (lex : Lexeme kind value x y) : (x ++ y).head?.any Text.isBlank = false := by
  cases lex with
  | variableEnd => exact Text.isBlank_of_range (by decide) (by decide)
  | tagEnd => exact Text.isBlank_of_range (by decide) (by decide)
  | name first stop => exact isBlank_of_isWordChar (isWordChar_of_startsName first)
  | number first digits => exact isBlank_of_isWordChar (isWordChar_of_isDigit first)
  | @string quote _ _ known closed =>
    rw [isQuote, Bool.or_eq_true, decide_eq_true_eq, decide_eq_true_eq] at known
    rcases known with rfl | rfl
    · exact Text.isBlank_of_range (by decide) (by decide)
    · exact Text.isBlank_of_range (by decide) (by decide)
  | pipe => exact Text.isBlank_of_range (by decide) (by decide)
  | paired known =>
    simp only [pairedOperators, List.mem_cons, List.cons.injEq, and_true, List.not_mem_nil,
      or_false] at known
    rcases known with ⟨rfl, rfl⟩ | ⟨rfl, rfl⟩ | ⟨rfl, rfl⟩ | ⟨rfl, rfl⟩ <;>
      exact Text.isBlank_of_range (by decide) (by decide)
  | single symbol alone =>
    simp only [isSymbol, Bool.not_eq_true', Bool.or_eq_false_iff] at symbol
    exact symbol.2

theorem Lexeme.written_ne_nil {kind : TokenKind} {value : String} {x y : List Char}
    (lex : Lexeme kind value x y) : x ≠ [] := by
  cases lex <;> exact List.cons_ne_nil _ _

/-- Blanks that something follows are skipped, no more and no less. -/
theorem nextInExpression_of_blanks {s : Lexer} {blanks rest : List Char}
    (h : s.rest = blanks ++ rest) (blank : ∀ c ∈ blanks, Text.isBlank c = true)
    (stop : rest.head?.any Text.isBlank = false) :
    s.nextInExpression = (s.advance blanks rest).nextAhead := by
  obtain ⟨skipped, left⟩ := span_of blank stop
  unfold nextInExpression
  rw [h, skipped, left]

theorem modeAfter_openingKind (c : Char) : (openingKind c).modeAfter = .expression := by
  unfold openingKind
  split <;> rfl

/-- A read in text goes by what is passed. -/
theorem nextInText_of_passes {s : Lexer} {r : Region} (passes : Passes s.rest r)
    (closed : r.unterminated = false) (none : r.text = []) :
    s.nextInText =
      match r.rest with
      | a :: b :: rest =>
        (.ok ⟨if b = '\x7b' then .variableStart else .tagStart, String.ofList [a, b],
            s.line + newlines r.passed⟩,
          { (s.advance r.passed r.rest).advance [a, b] rest with mode := .expression })
      | _ => (.ok ⟨.eof, "", s.line + newlines r.passed⟩, s.advance r.passed r.rest) := by
  unfold nextInText
  simp only [passes.eq, closed, none]
  rw [if_neg Bool.false_ne_true, if_neg (by simp)]
  rfl

/-- **A read gives what it comes upon.** -/
theorem next_of_ahead {s : Lexer} {g : Sight} (h : Ahead s.mode s.rest g) :
    s.next = g.result s := by
  unfold next
  generalize mode : s.mode = m at h
  generalize left : s.rest = cs at h
  cases h with
  | @text _ r passes closed some =>
    show s.nextInText = _
    unfold nextInText
    simp only [left, passes.eq, closed]
    rw [if_neg Bool.false_ne_true, if_pos some]
    simp only [Sight.result, List.nil_append, newlines, List.count_nil, Nat.add_zero, advance, mode]
    rfl
  | @opening _ rest r c passes closed none found =>
    show s.nextInText = _
    rw [nextInText_of_passes (left ▸ passes) closed none, found]
    simp only [advance_advance, Sight.result, modeAfter_openingKind]
    rfl
  | @textEnd _ r passes closed none ended =>
    show s.nextInText = _
    rw [nextInText_of_passes (left ▸ passes) closed none, ended]
    rfl
  | @unterminated _ r passes unclosed =>
    show s.nextInText = _
    unfold nextInText
    simp only [left, passes.eq, unclosed]
    rfl
  | @lexeme blanks x y _ _ blank lex =>
    show s.nextInExpression = _
    rw [nextInExpression_of_blanks left blank lex.head,
      nextAhead_of_lexeme (s := s.advance blanks (x ++ y)) lex mode rfl, advance_advance]
    rfl
  | tagUnclosed blank =>
    show s.nextInExpression = _
    rw [nextInExpression_of_blanks (left.trans (List.append_nil cs).symm) blank rfl]
    rfl
  | @stuck blanks rest failure blank stuck first =>
    show s.nextInExpression = _
    rw [nextInExpression_of_blanks left blank first]
    exact nextAhead_of_stuck (s := s.advance blanks rest) stuck

/-- **A read always comes upon something.** -/
theorem exists_ahead (m : Mode) (cs : List Char) : ∃ g, Ahead m cs g := by
  cases m with
  | text =>
    have passes := passes_region cs
    rcases passes.stop with ⟨closed, ended⟩ | ⟨unclosed, -⟩
    · by_cases none : (region cs).text = []
      · rcases ended with ended | ⟨c, rest, found, -⟩
        · exact ⟨_, .textEnd passes closed none ended⟩
        · exact ⟨_, .opening passes closed none found⟩
      · exact ⟨_, .text passes closed none⟩
    · exact ⟨_, .unterminated passes unclosed⟩
  | expression =>
    have blank := all_takeWhile Text.isBlank cs
    have stop := head?_dropWhile Text.isBlank cs
    have split := List.takeWhile_append_dropWhile (p := Text.isBlank) (l := cs)
    cases left : cs.dropWhile Text.isBlank with
    | nil =>
      rw [left, List.append_nil] at split
      rw [← split]
      exact ⟨_, .tagUnclosed blank⟩
    | cons c rest =>
      rw [left] at split stop
      rw [← split]
      rcases exists_lexeme c rest stop with ⟨kind, value, x, y, written, lex⟩ | ⟨failure, stuck⟩
      · rw [written]
        exact ⟨_, .lexeme blank lex⟩
      · exact ⟨_, .stuck blank stuck stop⟩

/-- What is passed and what is left are what stood ahead. -/
theorem Ahead.passed_rest {m : Mode} {cs : List Char} {g : Sight} (h : Ahead m cs g) :
    g.passed ++ g.rest = cs := by
  cases h with
  | text passes closed some => exact passes.split
  | opening passes closed none found =>
    rw [← passes.split, found]
    exact List.append_assoc _ _ _
  | textEnd passes closed none ended => rw [← passes.split, ended]; rfl
  | unterminated passes unclosed => exact passes.split
  | lexeme blank lex => exact List.append_assoc _ _ _
  | tagUnclosed blank => exact List.append_nil _
  | stuck blank stuck first => rfl

/-! ### Tokens ahead -/

section

variable {m : Mode} {cs skipped written rest : List Char} {kind : TokenKind} {value : String}

theorem Ahead.split (h : Ahead m cs (.token skipped kind value written rest)) :
    cs = skipped ++ (written ++ rest) :=
  h.passed_rest.symm.trans (List.append_assoc _ _ _)

/-- A token has a character of its own. -/
theorem Ahead.written_ne_nil (h : Ahead m cs (.token skipped kind value written rest)) :
    written ≠ [] := by
  cases h with
  | text passes closed some =>
    intro none
    have shorter := passes.text_sublist
    rw [none, List.sublist_nil] at shorter
    exact some shorter
  | opening passes closed none found => exact List.cons_ne_nil _ _
  | lexeme blank lex => exact lex.written_ne_nil

theorem modeBefore_wordKind (word : String) : (wordKind word).modeBefore = .expression := by
  unfold wordKind
  split <;> rfl

theorem Lexeme.modeBefore {x y : List Char} (lex : Lexeme kind value x y) :
    kind.modeBefore = .expression := by
  cases lex with
  | name => exact modeBefore_wordKind _
  | _ => rfl

/-- A token is found in the mode of its kind. -/
theorem Ahead.modeBefore (h : Ahead m cs (.token skipped kind value written rest)) :
    kind.modeBefore = m := by
  cases h with
  | text passes closed some => rfl
  | opening passes closed none found =>
    unfold openingKind
    split <;> rfl
  | lexeme blank lex => exact lex.modeBefore

theorem wordKind_ne_eof (word : String) : wordKind word ≠ .eof := by
  unfold wordKind
  split <;> exact nofun

/-- No token that is written is the end. -/
theorem Ahead.kind_ne_eof (h : Ahead m cs (.token skipped kind value written rest)) :
    kind ≠ .eof := by
  cases h with
  | text passes closed some => exact nofun
  | opening passes closed none found =>
    unfold openingKind
    split <;> exact nofun
  | lexeme blank lex =>
    cases lex with
    | name => exact wordKind_ne_eof _
    | _ => exact nofun

/-- A delimiter that begins a tag stands ahead. -/
def Tagged (cs : List Char) : Prop :=
  ∃ c rest, (c = '\x7b' ∨ c = '%') ∧ cs = '\x7b' :: c :: rest

/-- A token of text is the text of the region ahead. -/
theorem Ahead.textRegion (h : Ahead m cs (.token skipped kind value written rest))
    (text : kind = .text) : ∃ r, Passes cs r ∧ r.unterminated = false ∧ r.text ≠ [] ∧
      value = String.ofList r.text ∧ r.rest = rest := by
  cases h with
  | @text _ r passes closed some => exact ⟨r, passes, closed, some, rfl, rfl⟩
  | @opening _ _ _ c passes closed none found =>
    have := modeAfter_openingKind c
    rw [text] at this
    cases this
  | lexeme blank lex =>
    have := lex.modeBefore
    rw [text] at this
    cases this

/-- In front of the delimiter of a tag there is no text. -/
theorem Ahead.tagRegion (h : Ahead m cs (.token skipped kind value written rest))
    (tag : kind = .tagStart) : ∃ r, Passes cs r ∧ r.unterminated = false ∧ r.text = [] := by
  cases h with
  | text passes closed some => cases tag
  | @opening _ _ r _ passes closed none found => exact ⟨r, passes, closed, none⟩
  | lexeme blank lex =>
    have := lex.modeBefore
    rw [tag] at this
    cases this

/-- Text ends at a tag or at the end of the source. -/
theorem Ahead.tagged (h : Ahead m cs (.token skipped kind value written rest))
    (text : kind = .text) : rest = [] ∨ Tagged rest := by
  obtain ⟨r, passes, closed, -, -, rfl⟩ := h.textRegion text
  rcases passes.stop with ⟨-, ended | ⟨c, rest, found, known⟩⟩ | ⟨unclosed, -⟩
  · exact .inl ended
  · exact .inr ⟨c, rest, known, found⟩
  · rw [closed] at unclosed
    cases unclosed

end

/-- What may give way behind a token of a kind: behind text a tag that begins in the same way,
behind a delimiter anything, behind any other token what settles it. -/
def Fits : TokenKind → List Char → List Char → Prop
  | .text, y, z =>
    ∃ c y' z', (c = '\x7b' ∨ c = '%') ∧ y = '\x7b' :: c :: y' ∧ z = '\x7b' :: c :: z'
  | .variableStart, _, _ => True
  | .variableEnd, _, _ => True
  | .tagStart, _, _ => True
  | .tagEnd, _, _ => True
  | _, y, z => Settles y z

theorem fits_wordKind {word : String} {y z : List Char} (h : Fits (wordKind word) y z) :
    Settles y z := by
  unfold wordKind at h
  split at h <;> exact h

theorem Lexeme.refit {kind : TokenKind} {value : String} {x y z : List Char}
    (lex : Lexeme kind value x y) (fits : Fits kind y z) : Lexeme kind value x z := by
  have others : Settles y z → Lexeme kind value x z := lex.follow
  cases lex with
  | variableEnd => exact .variableEnd
  | tagEnd => exact .tagEnd
  | name => exact others (fits_wordKind fits)
  | number => exact others fits
  | string => exact others fits
  | pipe => exact others fits
  | paired => exact others fits
  | single => exact others fits

/-- **A token is found again** when what stands behind it gives way to what fits. -/
theorem Ahead.refit {m : Mode} {cs skipped written rest other : List Char} {kind : TokenKind}
    {value : String} (h : Ahead m cs (.token skipped kind value written rest))
    (fits : Fits kind rest other) :
    Ahead m (skipped ++ (written ++ other)) (.token skipped kind value written other) := by
  cases h with
  | text passes closed some =>
    obtain ⟨c, y, z, known, found, rfl⟩ := fits
    exact .text (passes.refit found known z) closed some
  | @opening _ _ r c passes closed none found =>
    have known := passes.delimiter closed found
    exact .opening (r := { r with rest := '\x7b' :: c :: other })
      (passes.refit found known other) closed none rfl
  | lexeme blank lex => exact .lexeme blank (lex.refit fits)

end Lexer
end Stencil
