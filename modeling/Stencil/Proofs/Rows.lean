/-
# Rows of tokens

From where it stands the lexer reads token after token. What it passes on the
way is what the source begins with there, and each token has a character of its
own, so a row comes to an end. A token of the row is found again as long as what
stands behind it fits it; a token that ends a tag fits everything. So a row up
to the end of a tag is the same whatever follows.

A reader of tokens that stands where the lexer stands reads what the lexer
reads, and stands where the lexer stands then.

Key definitions: `Terminal`, `Lexer.Moves`, `Lexer.Step`, `Lexer.Row`.
Key theorems: `Lexer.next_moves`, `Lexer.Row.refit`, `Parse.read_ofLexer`,
`Parse.peek_ofLexer`.
-/
import Stencil.Parser.Cursor
import Stencil.Proofs.Ahead

namespace Stencil

/-- A token less its line: what the grammar sees of it. -/
structure Terminal where
  kind : TokenKind
  value : String
  deriving DecidableEq, Repr

def Token.terminal (t : Token) : Terminal :=
  ⟨t.kind, t.value⟩

namespace Lexer

/-! ### Moving on -/

/-- From one place some characters lead to another. -/
structure Moves (s : Lexer) (passed : List Char) (s' : Lexer) : Prop where
  rest : s.rest = passed ++ s'.rest
  position : s'.position = s.position + passed.length
  line : s'.line = s.line + newlines passed

theorem Moves.refl (s : Lexer) : Moves s [] s :=
  ⟨rfl, rfl, rfl⟩

theorem Moves.trans {s s' s'' : Lexer} {xs ys : List Char} (h : Moves s xs s')
    (h' : Moves s' ys s'') : Moves s (xs ++ ys) s'' where
  rest := by rw [h.rest, h'.rest, List.append_assoc]
  position := by rw [h'.position, h.position, List.length_append, Nat.add_assoc]
  line := by rw [h'.line, h.line, newlines_append, Nat.add_assoc]

/-- **A read moves on** over what the source begins with, also when it fails. -/
theorem next_moves (s : Lexer) : ∃ passed, Moves s passed s.next.2 := by
  obtain ⟨g, ahead⟩ := exists_ahead s.mode s.rest
  have split := ahead.passed_rest
  rw [next_of_ahead ahead]
  cases g <;> exact ⟨_, split.symm, rfl, rfl⟩

/-- A read that gives a token and not the end. -/
def Step (s : Lexer) (a : Terminal) (s' : Lexer) : Prop :=
  a.kind ≠ .eof ∧ ∃ line, s.next = (.ok ⟨a.kind, a.value, line⟩, s')

theorem step_of_ahead {s : Lexer} {skipped written rest : List Char} {kind : TokenKind}
    {value : String} (h : Ahead s.mode s.rest (.token skipped kind value written rest)) :
    Step s ⟨kind, value⟩ { s.advance (skipped ++ written) rest with mode := kind.modeAfter } :=
  ⟨h.kind_ne_eof, _, next_of_ahead h⟩

/-- What a token is read from. -/
theorem Step.ahead {s s' : Lexer} {a : Terminal} (h : Step s a s') :
    ∃ skipped written, Ahead s.mode s.rest (.token skipped a.kind a.value written s'.rest) ∧
      s' = { s.advance (skipped ++ written) s'.rest with mode := a.kind.modeAfter } := by
  obtain ⟨proper, line, read⟩ := h
  obtain ⟨g, ahead⟩ := exists_ahead s.mode s.rest
  rw [next_of_ahead ahead] at read
  cases g with
  | token skipped kind value written rest =>
    simp only [Sight.result, Prod.mk.injEq, Except.ok.injEq, Token.mk.injEq] at read
    obtain ⟨⟨rfl, rfl, -⟩, rfl⟩ := read
    exact ⟨skipped, written, ahead, rfl⟩
  | finish skipped =>
    simp only [Sight.result, Prod.mk.injEq, Except.ok.injEq, Token.mk.injEq] at read
    exact absurd read.1.1.symm proper
  | stuck skipped failure rest => simp [Sight.result] at read

variable {s s' t : Lexer} {a : Terminal} {as bs : List Terminal}

theorem Step.mode (h : Step s a s') : s'.mode = a.kind.modeAfter := by
  obtain ⟨_, _, -, after⟩ := h.ahead
  rw [after]

theorem Step.modeBefore (h : Step s a s') : a.kind.modeBefore = s.mode := by
  obtain ⟨_, _, ahead, -⟩ := h.ahead
  exact ahead.modeBefore

/-- A token moves the lexer on. -/
theorem Step.moves (h : Step s a s') : ∃ passed, passed ≠ [] ∧ Moves s passed s' := by
  obtain ⟨skipped, written, ahead, after⟩ := h.ahead
  refine ⟨skipped ++ written, fun none => ?_, ?_⟩
  · exact ahead.written_ne_nil (List.append_eq_nil_iff.mp none).2
  · refine ⟨by rw [List.append_assoc]; exact ahead.split, ?_, ?_⟩
    · rw [after]
      rfl
    · rw [after]
      rfl

theorem Step.rest_lt (h : Step s a s') : s'.rest.length < s.rest.length := by
  obtain ⟨passed, some, moves⟩ := h.moves
  have : 0 < passed.length := List.length_pos_iff.mpr some
  rw [moves.rest, List.length_append]
  omega

/-! ### Rows -/

/-- Tokens that the lexer reads one after the other. -/
inductive Row : Lexer → List Terminal → Lexer → Prop
  | nil {s : Lexer} : Row s [] s
  | cons {s s' t : Lexer} {a : Terminal} {as : List Terminal} (first : Step s a s')
    (rest : Row s' as t) : Row s (a :: as) t

theorem Row.single (h : Step s a s') : Row s [a] s' :=
  .cons h .nil

theorem Row.append (h : Row s as s') (h' : Row s' bs t) : Row s (as ++ bs) t := by
  induction h with
  | nil => exact h'
  | cons first _ ih => exact .cons first (ih h')

/-- A row in two parts. -/
theorem Row.split (h : Row s (as ++ bs) t) : ∃ s', Row s as s' ∧ Row s' bs t := by
  induction as generalizing s with
  | nil => exact ⟨s, .nil, h⟩
  | cons a as ih =>
    cases h with
    | cons first rest =>
      obtain ⟨s', front, back⟩ := ih rest
      exact ⟨s', .cons first front, back⟩

theorem Row.moves (h : Row s as t) :
    ∃ passed, as.length ≤ passed.length ∧ Moves s passed t := by
  induction h with
  | nil => exact ⟨[], Nat.le_refl 0, .refl _⟩
  | cons first _ ih =>
    obtain ⟨front, some, moves⟩ := first.moves
    obtain ⟨back, long, moves'⟩ := ih
    have : 0 < front.length := List.length_pos_iff.mpr some
    refine ⟨front ++ back, ?_, moves.trans moves'⟩
    rw [List.length_cons, List.length_append]
    omega

/-! ### What stands behind a row -/

/-- A lexeme with what is behind it settles what stands in front of it. -/
theorem Lexeme.settles {kind : TokenKind} {value : String} {x y z : List Char}
    (lex : Lexeme kind value x y) (fits : Fits kind y z) : Settles (x ++ y) (x ++ z) := by
  have others : Settles y z → Settles (x ++ y) (x ++ z) := fun h => h.append x
  cases lex with
  | variableEnd => exact .inr ⟨rfl, .inr rfl⟩
  | tagEnd => exact .inr ⟨rfl, .inr rfl⟩
  | name => exact others (fits_wordKind fits)
  | number => exact others fits
  | string => exact others fits
  | pipe => exact others fits
  | paired => exact others fits
  | single => exact others fits

/-- What a token begins with fits the token in front of it, whatever fits the token itself. -/
theorem Ahead.fits {cs skipped written rest other : List Char} {kind before : TokenKind}
    {value : String}
    (h : Ahead before.modeAfter cs (.token skipped kind value written rest))
    (tagged : before = .text → Tagged cs) (fits : Fits kind rest other) :
    Fits before cs (skipped ++ (written ++ other)) := by
  have inside : before.modeAfter = .expression →
      Settles cs (skipped ++ (written ++ other)) := fun mode => by
    rw [mode] at h
    cases h with
    | lexeme blank lex => exact (lex.settles fits).append _
  cases before with
  | text =>
    obtain ⟨c, tail, known, first⟩ := tagged rfl
    have stopped : region cs = .stop cs := by
      rw [first]
      exact (Passes.tag known).eq
    generalize mode : TokenKind.modeAfter .text = m at h
    cases h with
    | text passes closed some =>
      rw [← passes.eq, stopped] at some
      exact absurd rfl some
    | @opening _ _ r d passes closed none found =>
      have same : r = .stop cs := passes.eq.symm.trans stopped
      subst same
      have tag : cs = '\x7b' :: d :: rest := found
      rw [first, List.cons.injEq, List.cons.injEq] at tag
      obtain ⟨-, rfl, rfl⟩ := tag
      exact ⟨c, tail, other, known, first, rfl⟩
    | lexeme => cases mode
  | variableStart => trivial
  | variableEnd => trivial
  | tagStart => trivial
  | tagEnd => trivial
  | identifier => exact inside rfl
  | string => exact inside rfl
  | number => exact inside rfl
  | operator => exact inside rfl
  | pipe => exact inside rfl
  | keyword => exact inside rfl
  | eof => exact inside rfl

/-- The lexer with something else ahead. -/
def withRest (s : Lexer) (rest : List Char) : Lexer :=
  { s with rest }

/-- A token is read again, on the same line, when what stands behind it gives way to what fits. -/
theorem next_refit {passed other : List Char} {read : Token} (h : s.next = (.ok read, s'))
    (proper : read.kind ≠ .eof) (moves : s.rest = passed ++ s'.rest)
    (fits : Fits read.kind s'.rest other) :
    (s.withRest (passed ++ other)).next = (.ok read, s'.withRest other) := by
  have step : Step s read.terminal s' := ⟨proper, read.line, h⟩
  obtain ⟨skipped, written, ahead, after⟩ := step.ahead
  have same : passed = skipped ++ written := by
    have split := ahead.split
    rw [moves, ← List.append_assoc] at split
    exact List.append_cancel_right split
  have line := congrArg Prod.fst h
  rw [next_of_ahead ahead, Sight.result, Except.ok.injEq] at line
  rw [next_of_ahead (s := s.withRest (passed ++ other))
    (by rw [same, List.append_assoc]; exact ahead.refit fits), Sight.result, after, ← line]
  rfl

theorem Step.refit {passed other : List Char} (h : Step s a s') (moves : s.rest = passed ++ s'.rest)
    (fits : Fits a.kind s'.rest other) :
    Step (s.withRest (passed ++ other)) a (s'.withRest other) := by
  obtain ⟨proper, line, read⟩ := h
  exact ⟨proper, line, next_refit read proper moves fits⟩

/-- In a row the tokens fit one another, and what fits the last one carries on to the first. -/
theorem Row.fits {back other : List Char} (first : Step s a s') (rest : Row s' as t)
    (moves : s'.rest = back ++ t.rest)
    (fits : ∀ b ∈ (a :: as).getLast?, Fits b.kind t.rest other) :
    Fits a.kind s'.rest (back ++ other) := by
  induction rest generalizing s a back with
  | nil =>
    have none : back = [] := List.append_left_eq_self.mp moves.symm
    rw [none]
    exact fits a rfl
  | @cons s' s'' t b as second rest ih =>
    obtain ⟨skipped, written, ahead, -⟩ := second.ahead
    obtain ⟨last, -, there⟩ := rest.moves
    have same : back = skipped ++ (written ++ last) := by
      rw [ahead.split, there.rest, ← List.append_assoc, ← List.append_assoc] at moves
      rw [← List.append_assoc]
      exact (List.append_cancel_right moves).symm
    have behind : Fits b.kind s''.rest (last ++ other) := ih second there.rest fits
    rw [same, List.append_assoc, List.append_assoc]
    refine (first.mode ▸ ahead).fits (fun text => ?_) behind
    obtain ⟨_, _, ahead', -⟩ := first.ahead
    refine (ahead'.tagged text).resolve_left fun ended => ?_
    have shorter := second.rest_lt
    rw [ended] at shorter
    exact absurd shorter (Nat.not_lt_zero _)

/-- **A row is found again** when what stands behind it gives way to what fits its last token. -/
theorem Row.refit {passed other : List Char} (h : Row s as t) (moves : s.rest = passed ++ t.rest)
    (fits : ∀ b ∈ as.getLast?, Fits b.kind t.rest other) :
    Row (s.withRest (passed ++ other)) as (t.withRest other) := by
  induction h generalizing passed with
  | nil =>
    have none : passed = [] := List.append_left_eq_self.mp moves.symm
    rw [none]
    exact .nil
  | @cons s s' t a as first rest ih =>
    obtain ⟨front, -, here⟩ := first.moves
    obtain ⟨back, -, there⟩ := rest.moves
    have same : passed = front ++ back := by
      rw [here.rest, there.rest, ← List.append_assoc] at moves
      exact (List.append_cancel_right moves).symm
    have last : ∀ b ∈ as.getLast?, Fits b.kind t.rest other := fun b hb =>
      fits b (by rw [List.getLast?_cons, Option.mem_def.mp hb]; rfl)
    have found := first.refit here.rest (rest.fits first there.rest fits)
    rw [same, List.append_assoc]
    exact .cons found (ih there.rest last)

/-- A row up to the end of a tag is the same whatever follows. -/
theorem Row.anywhere {passed : List Char} (h : Row s as t) (moves : s.rest = passed ++ t.rest)
    (closed : ∀ b ∈ as.getLast?, b.kind = .variableEnd ∨ b.kind = .tagEnd) (other : List Char) :
    Row (s.withRest (passed ++ other)) as (t.withRest other) := by
  refine h.refit moves fun b hb => ?_
  rcases closed b hb with same | same
  · rw [same]
    trivial
  · rw [same]
    trivial

/-! ### The rows of a source -/

/-- The lexer gives the end. -/
def Ends (s : Lexer) (s' : Lexer) : Prop :=
  ∃ line, s.next = (.ok ⟨.eof, "", line⟩, s')

/-- **A read gives a token, or the end, or fails.** -/
theorem next_cases (s : Lexer) :
    (∃ a s', Step s a s') ∨ (∃ s', Ends s s') ∨ ∃ failure s', s.next = (.error failure, s') := by
  obtain ⟨g, ahead⟩ := exists_ahead s.mode s.rest
  cases g with
  | token skipped kind value written rest => exact .inl ⟨_, _, step_of_ahead ahead⟩
  | finish skipped => exact .inr (.inl ⟨_, _, next_of_ahead ahead⟩)
  | stuck skipped failure rest => exact .inr (.inr ⟨_, _, next_of_ahead ahead⟩)

/-- What the end is read from. -/
theorem Ends.ahead (h : Ends s s') : ∃ skipped, Ahead s.mode s.rest (.finish skipped) ∧
    s' = s.advance skipped [] := by
  obtain ⟨line, read⟩ := h
  obtain ⟨g, ahead⟩ := exists_ahead s.mode s.rest
  rw [next_of_ahead ahead] at read
  cases g with
  | token skipped kind value written rest =>
    simp only [Sight.result, Prod.mk.injEq, Except.ok.injEq, Token.mk.injEq] at read
    exact absurd read.1.1 ahead.kind_ne_eof
  | finish skipped =>
    simp only [Sight.result, Prod.mk.injEq] at read
    exact ⟨skipped, ahead, read.2.symm⟩
  | stuck skipped failure rest => simp [Sight.result] at read

/-- At the end is the end, again and again. -/
theorem Ends.again (h : Ends s s') : s.next.1 = s'.next.1 ∧ s'.next.2 = s' := by
  obtain ⟨skipped, ahead, rfl⟩ := h.ahead
  have nothing : Ahead s.mode [] (.finish []) := by
    cases s.mode with
    | text => exact .textEnd .nil rfl rfl rfl
    | expression => exact .tagUnclosed (List.forall_mem_nil _)
  rw [next_of_ahead ahead, next_of_ahead (s := s.advance skipped []) nothing]
  exact ⟨rfl, advance_nil (s.advance skipped [])⟩

/-- The number of tokens up to the end or to a failure. -/
def size (s : Lexer) : Nat :=
  s.scan.size

theorem scanUpTo_step {n : Nat} (h : Step s a s') :
    ∃ line, s.next = (.ok ⟨a.kind, a.value, line⟩, s') ∧
      scanUpTo (n + 1) s = .token ⟨a.kind, a.value, line⟩ s' (scanUpTo n s') := by
  obtain ⟨proper, line, read⟩ := h
  refine ⟨line, read, ?_⟩
  rw [scanUpTo, read]
  exact if_neg proper

/-- It does not matter how many turns there are, if there is one for each character and one more. -/
theorem scanUpTo_eq_scan {count : Nat} (enough : s.rest.length < count) :
    scanUpTo count s = s.scan := by
  suffices same : ∀ m, s.rest.length < m → scanUpTo count s = scanUpTo m s from
    same _ (Nat.lt_succ_self _)
  induction count generalizing s with
  | zero => exact absurd enough (Nat.not_lt_zero _)
  | succ n ih =>
    intro m enough'
    cases m with
    | zero => exact absurd enough' (Nat.not_lt_zero _)
    | succ m =>
      rcases next_cases s with ⟨a, s', step⟩ | ⟨s', line, read⟩ | ⟨failure, s', read⟩
      · have shorter := step.rest_lt
        obtain ⟨line, read, unfolded⟩ := scanUpTo_step (n := n) step
        obtain ⟨line', read', unfolded'⟩ := scanUpTo_step (n := m) step
        rw [read, Prod.mk.injEq, Except.ok.injEq] at read'
        rw [unfolded, unfolded', ih (by omega) m (by omega), read'.1]
      · rw [scanUpTo, scanUpTo, read]
        rfl
      · rw [scanUpTo, scanUpTo, read]

theorem scan_of_step (h : Step s a s') : ∃ line, s.next = (.ok ⟨a.kind, a.value, line⟩, s') ∧
    s.scan = .token ⟨a.kind, a.value, line⟩ s' s'.scan := by
  obtain ⟨line, read, unfolded⟩ := scanUpTo_step (n := s.rest.length) h
  rw [scanUpTo_eq_scan h.rest_lt] at unfolded
  exact ⟨line, read, unfolded⟩

theorem scan_of_end {t : Token} (h : s.next = (.ok t, s')) (ended : t.kind = .eof) :
    s.scan = .finish t s' := by
  rw [scan, scanUpTo, h]
  exact if_pos ended

theorem scan_of_failure {failure : Failure} (h : s.next = (.error failure, s')) :
    s.scan = .broken failure s' := by
  rw [scan, scanUpTo, h]

theorem size_of_step (h : Step s a s') : s.size = s'.size + 1 := by
  obtain ⟨line, -, unfolded⟩ := scan_of_step h
  rw [size, unfolded]
  rfl

theorem Row.size (h : Row s as t) : s.size = as.length + t.size := by
  induction h with
  | nil => rw [List.length_nil, Nat.zero_add]
  | cons first _ ih =>
    rw [size_of_step first, ih, List.length_cons]
    omega

end Lexer

/-! ### Reading a row -/

namespace Parse

open Lexer

theorem ofLexer_of_end {s s' : Lexer} (h : Ends s s') :
    ∃ line, s.next = (.ok ⟨.eof, "", line⟩, s') ∧
      Cursor.ofLexer s = ⟨s, .finish ⟨.eof, "", line⟩ s', 0, rfl⟩ ∧
      Cursor.ofLexer s' = ⟨s', .finish ⟨.eof, "", line⟩ s', 0, rfl⟩ := by
  obtain ⟨line, read⟩ := h
  have again : s'.next = (.ok ⟨.eof, "", line⟩, s') := by
    obtain ⟨same, stays⟩ := Ends.again ⟨line, read⟩
    rw [read] at same
    exact Prod.ext same.symm stays
  exact ⟨line, read, Cursor.eq_of_ahead rfl (scan_of_end read rfl),
    Cursor.eq_of_ahead rfl (scan_of_end again rfl)⟩

theorem ofLexer_of_step {s s' : Lexer} {a : Terminal} (h : Step s a s') :
    ∃ line, s.next = (.ok ⟨a.kind, a.value, line⟩, s') ∧
      Cursor.ofLexer s =
        ⟨s, .token ⟨a.kind, a.value, line⟩ s' s'.scan, s'.size + 1, rfl⟩ := by
  obtain ⟨line, read, scanned⟩ := scan_of_step h
  exact ⟨line, read, Cursor.eq_of_ahead rfl scanned⟩

theorem ofLexer_of_failure {s s' : Lexer} {failure : Failure}
    (h : s.next = (.error failure, s')) :
    Cursor.ofLexer s = ⟨s, .broken failure s', 0, rfl⟩ :=
  Cursor.eq_of_ahead rfl (scan_of_failure h)

/-- **A reader reads what the lexer reads**, and stands where the lexer stands then. -/
theorem read_ofLexer (s : Lexer) :
    read (.ofLexer s) =
      match s.next with
      | (.ok t, s') => .ok (t, .ofLexer s')
      | (.error failure, s') => .error ⟨failure, s'⟩ := by
  rcases next_cases s with ⟨a, s', step⟩ | ⟨s', ended⟩ | ⟨failure, s', next⟩
  · obtain ⟨line, next, cursor⟩ := ofLexer_of_step step
    rw [next, cursor]
    rfl
  · obtain ⟨line, next, cursor, cursor'⟩ := ofLexer_of_end ended
    rw [next, cursor]
    exact congrArg (fun c => Except.ok (_, c)) cursor'.symm
  · rw [next, ofLexer_of_failure next]
    rfl

/-- A reader that looks ahead sees what the lexer would read. -/
theorem peek_ofLexer (s : Lexer) :
    peek (.ofLexer s) =
      match s.next with
      | (.ok t, _) => .ok (t, .ofLexer s)
      | (.error failure, _) => .error ⟨failure, s⟩ := by
  rcases next_cases s with ⟨a, s', step⟩ | ⟨s', ended⟩ | ⟨failure, s', next⟩
  · obtain ⟨line, next, cursor⟩ := ofLexer_of_step step
    rw [next, cursor]
    rfl
  · obtain ⟨line, next, cursor, -⟩ := ofLexer_of_end ended
    rw [next, cursor]
    rfl
  · rw [next, ofLexer_of_failure next]
    rfl

end Parse

end Stencil
