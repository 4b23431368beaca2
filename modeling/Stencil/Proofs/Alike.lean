/-
# Reads that are alike

Two lexers may stand at different places, with different things in front of what
they come upon. If they come upon the same, they give the same token or fail in the
same way, and then the same is ahead of both. From then on all their reads are
alike, and the lines of one are later by a fixed number.

In text two lexers come upon the same if the regions ahead of them hold the same
text and end in the same way, whatever comments they pass.

Key definitions: `Lexer.Shifted`, `Lexer.Alike`.
Key theorems: `Lexer.alike_of_regions`, `Lexer.Alike.row`, `Lexer.alike_lockstep`.
-/
import Stencil.Proofs.Lockstep

namespace Stencil
namespace Lexer

/-- The same is ahead, on lines that are later by `n`. -/
structure Shifted (n : Nat) (s s' : Lexer) : Prop where
  rest : s'.rest = s.rest
  mode : s'.mode = s.mode
  line : s'.line = s.line + n

/-- The same is come upon from two lines, and then the second line is later by `n`; where text
begins it may be later by less. -/
inductive Sight.Later (n line line' : Nat) : Sight → Sight → Prop
  | token {skipped skipped' written written' rest : List Char} {kind : TokenKind} {value : String}
    {m : Nat} (first : line' + newlines skipped' = line + newlines skipped + m)
    (same : kind ≠ .text → m = n)
    (lines : line' + newlines (skipped' ++ written') = line + newlines (skipped ++ written) + n) :
    Later n line line' (.token skipped kind value written rest)
      (.token skipped' kind value written' rest)
  | finish {skipped skipped' : List Char}
    (lines : line' + newlines skipped' = line + newlines skipped + n) :
    Later n line line' (.finish skipped) (.finish skipped')
  | stuck {skipped skipped' rest : List Char} {failure : Nat → Failure}
    (lines : line' + newlines skipped' = line + newlines skipped + n) :
    Later n line line' (.stuck skipped failure rest) (.stuck skipped' failure rest)

/-- A failure to read is told of the line alone. -/
theorem Ahead.failure_later {mode : Mode} {cs skipped rest : List Char} {failure : Nat → Failure}
    (h : Ahead mode cs (.stuck skipped failure rest)) (line n : Nat) :
    failure (line + n) = (failure line).later n := by
  cases h with
  | unterminated passes unclosed => exact (Failure.later_onLine n .unterminatedComment line).symm
  | stuck blank stuck first =>
    cases stuck with
    | stray strange => rfl
    | string known inside => exact (Failure.later_onLine n .unterminatedString line).symm

/-- The reads of two lexers are alike: they give the same or fail in the same way, and the same is
ahead then. -/
structure Alike (n : Nat) (s s' : Lexer) : Prop where
  token : ∀ {t : Token} {s₁ : Lexer}, s.next = (.ok t, s₁) → ∃ m s₁',
    s'.next = (.ok (t.later m), s₁') ∧ Shifted n s₁ s₁' ∧ (t.kind ≠ .text → m = n)
  failure : ∀ {f : Failure} {s₁ : Lexer}, s.next = (.error f, s₁) → ∃ s₁',
    s'.next = (.error (f.later n), s₁') ∧ Shifted n s₁ s₁'

variable {n : Nat} {s s' : Lexer}

/-- **Lexers that come upon the same are alike.** -/
theorem alike_of_later {g g' : Sight} (ahead : Ahead s.mode s.rest g)
    (ahead' : Ahead s'.mode s'.rest g') (mode : s'.mode = s.mode)
    (later : g.Later n s.line s'.line g') : Alike n s s' := by
  have found := next_of_ahead ahead
  have found' := next_of_ahead ahead'
  cases later with
  | @token skipped skipped' written written' rest kind value m first same lines =>
    refine ⟨fun read => ?_, fun read => ?_⟩
    · rw [found, Sight.result, Prod.mk.injEq, Except.ok.injEq] at read
      obtain ⟨rfl, rfl⟩ := read
      refine ⟨m, _, found'.trans (Prod.ext ?_ rfl), ⟨rfl, rfl, lines⟩, same⟩
      simp only [Sight.result, Token.later, first]
    · rw [found, Sight.result] at read
      cases read
  | @finish skipped skipped' lines =>
    refine ⟨fun read => ?_, fun read => ?_⟩
    · rw [found, Sight.result, Prod.mk.injEq, Except.ok.injEq] at read
      obtain ⟨rfl, rfl⟩ := read
      refine ⟨n, _, found'.trans (Prod.ext ?_ rfl), ⟨rfl, mode, lines⟩, fun _ => rfl⟩
      simp only [Sight.result, Token.later, lines]
    · rw [found, Sight.result] at read
      cases read
  | @stuck skipped skipped' rest failure lines =>
    refine ⟨fun read => ?_, fun read => ?_⟩
    · rw [found, Sight.result] at read
      cases read
    · rw [found, Sight.result, Prod.mk.injEq, Except.error.injEq] at read
      obtain ⟨rfl, rfl⟩ := read
      refine ⟨_, found'.trans (Prod.ext ?_ rfl), rfl, mode, lines⟩
      simp only [Sight.result, lines, ahead.failure_later]

theorem Shifted.alike (h : Shifted n s s') : Alike n s s' := by
  obtain ⟨g, ahead⟩ := exists_ahead s.mode s.rest
  have ahead' : Ahead s'.mode s'.rest g := by
    rw [h.mode, h.rest]
    exact ahead
  refine alike_of_later ahead ahead' h.mode ?_
  have further : ∀ cs, s'.line + newlines cs = s.line + newlines cs + n := fun cs => by
    rw [h.line]
    omega
  cases g with
  | token => exact .token (further _) (fun _ => rfl) (further _)
  | finish => exact .finish (further _)
  | stuck => exact .stuck (further _)

/-- **Lexers that are alike are in lockstep.** -/
theorem alike_lockstep (place n : Nat) : Lockstep place n (Alike n) where
  token together found := by
    obtain ⟨m, s₁', found', behind, same⟩ := together.token found
    exact ⟨m, s₁', found', behind.alike, fun proper _ => same proper⟩
  failure together found := by
    obtain ⟨s₁', found', -⟩ := together.failure found
    exact ⟨n, s₁', found', fun _ => rfl⟩

/-- Lexers that are alike read the same row of tokens. -/
theorem Alike.row {as : List Terminal} {t : Lexer} (h : Alike n s s') (row : Row s as t) :
    ∃ t', Row s' as t' ∧ Alike n t t' := by
  induction row generalizing s' with
  | nil => exact ⟨s', .nil, h⟩
  | cons first rest ih =>
    obtain ⟨proper, line, found⟩ := first
    obtain ⟨m, s₁', found', behind, -⟩ := h.token found
    obtain ⟨t', row', both⟩ := ih behind.alike
    exact ⟨t', .cons ⟨proper, _, found'⟩ row', both⟩

/-- Lexers that are alike come to the end together. -/
theorem Alike.ends {t : Lexer} (h : Alike n s s') (ends : Ends s t) : ∃ t', Ends s' t' := by
  obtain ⟨line, found⟩ := ends
  obtain ⟨m, t', found', -⟩ := h.token found
  exact ⟨t', _, found'⟩

/-- **Regions with the same text** that end in the same way make two lexers alike. -/
theorem alike_of_regions {r r' : Region} (between : s.mode = .text) (between' : s'.mode = .text)
    (passes : Passes s.rest r) (passes' : Passes s'.rest r')
    (text : r.unterminated = false → r'.text = r.text) (rest : r'.rest = r.rest)
    (unterminated : r'.unterminated = r.unterminated) (first : s.line ≤ s'.line)
    (lines : s'.line + newlines r'.passed = s.line + newlines r.passed + n) : Alike n s s' := by
  suffices both : ∃ g g', Ahead .text s.rest g ∧ Ahead .text s'.rest g' ∧
      g.Later n s.line s'.line g' by
    obtain ⟨g, g', ahead, ahead', later⟩ := both
    exact alike_of_later (between ▸ ahead) (between' ▸ ahead') (between'.trans between.symm) later
  cases closed : r.unterminated with
  | true =>
    refine ⟨_, _, .unterminated passes closed, .unterminated passes' (unterminated.trans closed), ?_⟩
    rw [rest]
    exact .stuck lines
  | false =>
    have closed' := unterminated.trans closed
    have text := text closed
    by_cases none : r.text = []
    · rcases passes.stop with ⟨-, ended | ⟨c, tail, found, known⟩⟩ | ⟨unclosed, -⟩
      · exact ⟨_, _, .textEnd passes closed none ended,
          .textEnd passes' closed' (text.trans none) (rest.trans ended), .finish lines⟩
      · refine ⟨_, _, .opening passes closed none found,
          .opening passes' closed' (text.trans none) (rest.trans found),
          .token lines (fun _ => rfl) ?_⟩
        rw [newlines_append, newlines_append]
        omega
      · rw [closed] at unclosed
        cases unclosed
    · refine ⟨_, _, .text passes closed none, .text passes' closed' (text ▸ none), ?_⟩
      rw [text, rest]
      obtain ⟨m, later⟩ := Nat.exists_eq_add_of_le first
      exact .token (m := m) later (fun proper => absurd rfl proper) lines

end Lexer
end Stencil
