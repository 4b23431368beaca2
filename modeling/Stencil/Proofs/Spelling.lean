/-
# Tokens spelled with spaces

A row of tokens is spelled with a space between the tokens of a tag. Read again, it
gives the same tokens, if each can be read at all and each fits between its
neighbours: inside a tag the tokens of a tag, and text only where a tag follows that
no brace runs into. The tokens that the lexer gives are of this kind.

Key definitions: `Terminal.spell`, `Terminal.Legible`, `Terminal.Follows`.
Key theorems: `Lexer.Row.legible`, `Lexer.Row.follows`, `Lexer.exists_row_of_spell`.
-/
import Mathlib.Data.List.Chain
import Stencil.Proofs.Phrases
import Stencil.Proofs.Splicing

namespace Stencil

open Lexer

namespace Terminal

/-- A string in double quotes, or in single quotes if it contains a double one. -/
def quoted (cs : List Char) : List Char :=
  let quote := if '"' ∈ cs then '\'' else '"'
  quote :: cs ++ [quote]

/-- How a token is written. -/
def written (a : Terminal) : List Char :=
  if a.kind = .string then quoted a.value.toList else a.value.toList

/-- What stands behind a token: a space inside a tag, but nothing behind the sign of a number. -/
def gap (a : Terminal) : List Char :=
  if a.kind.modeAfter = .text ∨ a = operator "-" then [] else [' ']

/-- Tokens as they are written one behind the other. -/
def spell : List Terminal → List Char
  | [] => []
  | a :: as => a.written ++ (a.gap ++ spell as)

/-- A token that can be read: text that no tag begins in, a delimiter, or a word of a tag. -/
def Legible (a : Terminal) : Prop :=
  match a.kind with
  | .text => a.value.toList ≠ [] ∧ a.value.toList.IsChain fun c d => opens c d = false
  | .variableStart => a = fixed .variableStart
  | .tagStart => a = fixed .tagStart
  | _ => ∃ x, Lexeme a.kind a.value x []

/-- A token that may stand behind another one. -/
structure Follows (a b : Terminal) : Prop where
  mode : a.kind.modeAfter = b.kind.modeBefore
  text : a.kind = .text → b.kind ≠ .text ∧ a.value.toList.getLast? ≠ some '\x7b'

end Terminal

open Terminal

namespace Lexer

/-! ### Tokens that were read -/

theorem settles_nil (y : List Char) : Settles y [] :=
  .inl rfl

theorem legible_text {cs : List Char} (some : cs ≠ [])
    (chain : cs.IsChain fun c d => opens c d = false) : Legible ⟨.text, String.ofList cs⟩ := by
  refine ⟨?_, ?_⟩ <;> rwa [String.toList_ofList]

theorem Lexeme.legible {kind : TokenKind} {value : String} {x y : List Char}
    (lex : Lexeme kind value x y) : Legible ⟨kind, value⟩ := by
  have mode := lex.modeBefore
  have alone := lex.follow (settles_nil y)
  cases kind with
  | text => cases mode
  | variableStart => cases mode
  | tagStart => cases mode
  | _ => exact ⟨x, alone⟩

/-- A brace in text is followed by the next character of the text, if by any. -/
theorem Passes.next_of_brace {cs : List Char} {r : Region} (h : Passes cs r)
    (plain : ∀ d ∈ cs.head?, opens '\x7b' d = false) :
    cs = [] ∧ r.rest = [] ∧ r.text = [] ∨ ∃ d text, cs.head? = some d ∧ r.text = d :: text := by
  cases h with
  | nil => exact .inl ⟨rfl, rfl, rfl⟩
  | tag => exact absurd (plain _ rfl) (by decide)
  | comment => exact absurd (plain _ rfl) (by decide)
  | unclosed => exact absurd (plain _ rfl) (by decide)
  | char => exact .inr ⟨_, _, rfl, rfl⟩

/-- In the text of a region no tag begins, and if something stands behind the region, no brace ends
it. -/
theorem Passes.text_chain {cs : List Char} {r : Region} (h : Passes cs r) :
    r.text.IsChain (fun c d => opens c d = false) ∧
      (r.rest ≠ [] → r.text.getLast? ≠ some '\x7b') := by
  induction h with
  | nil => exact ⟨.nil, fun _ => nofun⟩
  | tag => exact ⟨.nil, fun _ => nofun⟩
  | comment _ _ ih => exact ih
  | unclosed => exact ⟨.nil, fun _ => nofun⟩
  | @char c cs r plain rest ih =>
    refine ⟨List.isChain_cons.mpr ⟨fun d hd => ?_, ih.1⟩, fun some last => ?_⟩
    · by_cases brace : c = '\x7b'
      · rcases rest.next_of_brace (brace ▸ plain) with ⟨-, -, none⟩ | ⟨e, text, first, found⟩
        · rw [none] at hd
          cases hd
        · rw [found] at hd
          cases hd
          exact plain d first
      · simp [opens, brace]
    · have last : (c :: r.text).getLast? = Option.some '\x7b' := last
      cases text : r.text with
      | nil =>
        rw [text] at last
        obtain rfl := Option.some.inj last
        rcases rest.next_of_brace plain with ⟨-, none, -⟩ | ⟨e, text', -, found⟩
        · exact some none
        · rw [text] at found
          cases found
      | cons d ds =>
        rw [text, List.getLast?_cons_cons, ← text] at last
        exact ih.2 some last

/-- A token that was read can be read. -/
theorem Step.legible {s s' : Lexer} {a : Terminal} (h : Step s a s') : a.Legible := by
  obtain ⟨kind, value⟩ := a
  obtain ⟨skipped, written, ahead, -⟩ := h.ahead
  generalize s'.rest = rest at ahead
  generalize s.rest = cs at ahead
  generalize s.mode = mode at ahead
  cases ahead with
  | text passes closed some => exact legible_text some passes.text_chain.1
  | opening passes closed none found =>
    rcases passes.delimiter closed found with rfl | rfl <;> rfl
  | lexeme blank lex => exact lex.legible

/-- A token that was read behind another one may stand there. -/
theorem Step.follows {s s' s'' : Lexer} {a b : Terminal} (first : Step s a s')
    (second : Step s' b s'') : Follows a b := by
  refine ⟨first.mode.symm.trans second.modeBefore.symm, fun text => ⟨first.ne_text text second, ?_⟩⟩
  obtain ⟨skipped, written, ahead, -⟩ := first.ahead
  obtain ⟨r, passes, -, -, value, rest⟩ := ahead.textRegion text
  rw [value, String.toList_ofList]
  refine passes.text_chain.2 fun ended => ?_
  have less := second.rest_lt
  rw [← rest, ended] at less
  exact absurd less (Nat.not_lt_zero _)

/-- **The tokens of a row can be read.** -/
theorem Row.legible {s t : Lexer} {as : List Terminal} (h : Row s as t) : ∀ a ∈ as, a.Legible := by
  induction h with
  | nil => exact List.forall_mem_nil _
  | cons first _ ih => exact List.forall_mem_cons.mpr ⟨first.legible, ih⟩

/-- **The tokens of a row follow one another.** -/
theorem Row.follows {s t : Lexer} {as : List Terminal} (h : Row s as t) : as.IsChain Follows := by
  induction h with
  | nil => exact .nil
  | cons first rest ih =>
    refine List.isChain_cons.mpr ⟨fun b hb => ?_, ih⟩
    cases rest with
    | nil => cases hb
    | cons second _ =>
      cases hb
      exact first.follows second

/-! ### Tokens that are read again -/

/-- A word of a tag is read as it is written, whatever quotes it was found in. -/
theorem Lexeme.written {kind : TokenKind} {value : String} {x y : List Char}
    (lex : Lexeme kind value x y) : Lexeme kind value (Terminal.written ⟨kind, value⟩) y := by
  have plain : ∀ {kind : TokenKind} {cs : List Char}, kind ≠ .string →
      Lexeme kind (String.ofList cs) cs y →
        Lexeme kind (String.ofList cs) (Terminal.written ⟨kind, String.ofList cs⟩) y := by
    intro kind cs other lex
    rwa [Terminal.written, if_neg other, String.toList_ofList]
  cases lex with
  | variableEnd => exact .variableEnd
  | tagEnd => exact .tagEnd
  | @name c tail _ first stop =>
    refine plain ?_ (.name first stop)
    unfold wordKind
    split <;> exact nofun
  | number first digits => exact plain (by decide) (.number first digits)
  | @string quote value _ known inside =>
    rw [Terminal.written, if_pos rfl, String.toList_ofList, quoted]
    by_cases double : '"' ∈ value
    · rw [if_pos double]
      refine .string (by decide) ?_
      rw [isQuote, Bool.or_eq_true, decide_eq_true_eq, decide_eq_true_eq] at known
      rcases known with rfl | rfl
      · exact absurd double inside
      · exact inside
    · rw [if_neg double]
      exact .string (by decide) double
  | pipe => exact .pipe
  | paired known => exact plain (by decide) (.paired known)
  | single symbol alone => exact plain (by decide) (.single symbol alone)

/-- The sign of a number is read whatever stands behind it. -/
theorem lexeme_minus (y : List Char) : Lexeme .operator "-" ['-'] y :=
  .single (by decide) fun d _ => by simp [pairs, pairedOperators]

/-- A word of a tag is read again in front of its gap. -/
theorem Lexeme.before_gap {kind : TokenKind} {value : String}
    (lex : Lexeme kind value (Terminal.written ⟨kind, value⟩) []) (rest : List Char) :
    Lexeme kind value (Terminal.written ⟨kind, value⟩) (gap ⟨kind, value⟩ ++ rest) := by
  by_cases none : kind.modeAfter = .text ∨ (⟨kind, value⟩ : Terminal) = operator "-"
  · rw [gap, if_pos none]
    rcases none with ends | minus
    · have noText : kind ≠ .text := fun text => by
        have mode := lex.modeBefore
        rw [text] at mode
        cases mode
      refine lex.refit ?_
      rcases ends_of_modeAfter ends noText with rfl | rfl <;> trivial
    · cases minus
      exact lexeme_minus _
  · rw [gap, if_neg none]
    exact lex.follow (.inl rfl)

/-- Text that no tag begins in is passed, up to the end or to a tag that no brace runs into. -/
theorem passes_of_chain {cs rest : List Char} (chain : cs.IsChain fun c d => opens c d = false)
    (stop : rest = [] ∨ Tagged rest ∧ cs.getLast? ≠ some '\x7b') :
    Passes (cs ++ rest) ⟨cs, cs, rest, false⟩ := by
  induction cs with
  | nil =>
    rcases stop with rfl | ⟨⟨c, tail, known, rfl⟩, -⟩
    · exact .nil
    · exact .tag known
  | cons c cs ih =>
    rw [List.isChain_cons] at chain
    refine .char (fun d hd => ?_) (ih chain.2 (stop.imp_right fun h => ⟨h.1, fun last => h.2 ?_⟩))
    · cases cs with
      | nil =>
        rcases stop with rfl | ⟨-, other⟩
        · cases hd
        · have brace : c ≠ '\x7b' := fun same => other (congrArg some same)
          simp [opens, brace]
      | cons e cs => exact chain.1 d hd
    · rw [List.getLast?_cons, last]
      rfl

/-- Behind text a tag is spelled. -/
theorem tagged_of_legible {a : Terminal} {as : List Terminal} (legible : a.Legible)
    (mode : a.kind.modeBefore = .text) (other : a.kind ≠ .text) : Tagged (spell (a :: as)) := by
  obtain ⟨kind, value⟩ := a
  cases kind with
  | variableStart =>
    cases (legible : _ = fixed .variableStart)
    exact ⟨_, _, .inl rfl, rfl⟩
  | tagStart =>
    cases (legible : _ = fixed .tagStart)
    exact ⟨_, _, .inr rfl, rfl⟩
  | text => exact absurd rfl other
  | _ => cases mode

/-- A delimiter that begins a tag is read first, where nothing stands in front of it. -/
theorem ahead_of_opening {c : Char} (known : c = '\x7b' ∨ c = '%') (rest : List Char) :
    Ahead .text ('\x7b' :: c :: rest)
      (.token [] (openingKind c) (String.ofList ['\x7b', c]) ['\x7b', c] rest) :=
  .opening (.tag known) rfl rfl rfl

/-- What is spelled is read again, token by token. -/
theorem ahead_of_spell {a : Terminal} {as : List Terminal} {blanks : List Char} {mode : Mode}
    (legible : a.Legible) (behind : ∀ b ∈ as.head?, Follows a b ∧ b.Legible)
    (blank : ∀ c ∈ blanks, Text.isBlank c = true) (inside : blanks ≠ [] → mode = .expression)
    (first : mode = a.kind.modeBefore) :
    Ahead mode (blanks ++ spell (a :: as))
      (.token blanks a.kind a.value a.written (a.gap ++ spell as)) := by
  obtain ⟨kind, value⟩ := a
  have noBlanks : mode = .text → blanks = [] := fun text => by
    by_contra some
    rw [inside some] at text
    cases text
  have lexeme : (∃ x, Lexeme kind value x []) → mode = .expression →
      Ahead mode (blanks ++ spell (⟨kind, value⟩ :: as)) (.token blanks kind value
        (Terminal.written ⟨kind, value⟩) (gap ⟨kind, value⟩ ++ spell as)) := by
    rintro ⟨x, lex⟩ rfl
    exact .lexeme blank (lex.written.before_gap _)
  cases kind with
  | text =>
    obtain rfl : mode = .text := first
    rw [noBlanks rfl]
    have stop : spell as = [] ∨ Tagged (spell as) ∧ value.toList.getLast? ≠ some '\x7b' := by
      cases as with
      | nil => exact .inl rfl
      | cons b as =>
        obtain ⟨follows, legible⟩ := behind b rfl
        obtain ⟨other, brace⟩ := follows.text rfl
        exact .inr ⟨tagged_of_legible legible follows.mode.symm other, brace⟩
    have ahead := Ahead.text (passes_of_chain legible.2 stop) rfl legible.1
    rwa [String.ofList_toList] at ahead
  | variableStart =>
    obtain rfl : mode = .text := first
    rw [noBlanks rfl]
    cases (legible : _ = fixed .variableStart)
    exact ahead_of_opening (.inl rfl) _
  | tagStart =>
    obtain rfl : mode = .text := first
    rw [noBlanks rfl]
    cases (legible : _ = fixed .tagStart)
    exact ahead_of_opening (.inr rfl) _
  | _ => exact lexeme legible first

/-- **Tokens that are spelled are read again**: a row of tokens that can be read and that follow one
another. -/
theorem exists_row_of_spell {as : List Terminal} (legible : ∀ a ∈ as, a.Legible)
    (follows : as.IsChain Follows) {s : Lexer} {blanks : List Char}
    (blank : ∀ c ∈ blanks, Text.isBlank c = true) (inside : blanks ≠ [] → s.mode = .expression)
    (first : ∀ a ∈ as.head?, s.mode = a.kind.modeBefore) (ahead : s.rest = blanks ++ spell as) :
    ∃ t, Row s as t ∧ t.rest = (as.getLast?.map gap).getD blanks := by
  induction as generalizing s blanks with
  | nil =>
    rw [spell, List.append_nil] at ahead
    exact ⟨s, .nil, ahead⟩
  | cons a as ih =>
    rw [List.forall_mem_cons] at legible
    rw [List.isChain_cons] at follows
    have behind : ∀ b ∈ as.head?, Follows a b ∧ b.Legible := fun b hb =>
      ⟨follows.1 b hb, legible.2 b (List.mem_of_mem_head? hb)⟩
    have sight := ahead_of_spell legible.1 behind blank inside (first a rfl)
    rw [← ahead] at sight
    have step := step_of_ahead sight
    have gapBlank : ∀ c ∈ a.gap, Text.isBlank c = true := by
      unfold gap
      split
      · exact List.forall_mem_nil _
      · exact List.forall_mem_singleton.mpr rfl
    have gapInside : a.gap ≠ [] → a.kind.modeAfter = .expression := by
      unfold gap
      split
      · exact fun some => absurd rfl some
      · next none =>
        intro _
        cases mode : a.kind.modeAfter with
        | text => exact absurd (.inl mode) none
        | expression => rfl
    obtain ⟨t, row, rest⟩ := ih legible.2 follows.2 gapBlank (s := { s.advance _ _ with mode := _ })
      gapInside (fun b hb => (follows.1 b hb).mode) rfl
    refine ⟨t, .cons step row, ?_⟩
    rw [rest, List.getLast?_cons]
    cases as.getLast? <;> rfl

end Lexer
end Stencil
