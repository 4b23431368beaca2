/-
# Two lexers in lockstep

Two lexers are in lockstep when they give the same tokens one by one and fail in
the same way, so that at most the lines differ: those of one run are later by some
number of lines, and from a certain place in the source on it is always the same
number. Then a reader does the same in both runs. It makes the same, or it fails
over the same token; and when that token stands behind the place, the failure of
one run is later by that number of lines and no different otherwise.

Only the lines of tokens inside tags count, since no reader fails over text; so
the readers are followed together with the mode that each leaves the lexer in.
Repetitions are given a turn for each token ahead, so they are followed together
with a bound on the tokens ahead.

Key definitions: `Token.later`, `Failure.later`, `Halt.place`, `Lexer.Lockstep`,
`Parse.Agrees`.
Key theorems: `Parse.read_agrees`, `Parse.expression_agrees`, `Parse.condition_agrees`.
-/
import Stencil.Proofs.Phrases

namespace Stencil

/-! ### Later lines -/

def Token.later (n : Nat) (t : Token) : Token :=
  { t with line := t.line + n }

@[simp] theorem Token.kind_later (n : Nat) (t : Token) : (t.later n).kind = t.kind :=
  rfl

@[simp] theorem Token.value_later (n : Nat) (t : Token) : (t.later n).value = t.value :=
  rfl

/-- A cause that is told of a token on a later line. -/
def Cause.later (n : Nat) : Cause → Cause
  | .unexpectedToken got => .unexpectedToken (got.later n)
  | .wanted want got => .wanted want (got.later n)
  | cause => cause

def Failure.later (n : Nat) : Failure → Failure
  | .error e => .error { e with cause := e.cause.later n, line := e.line.map (· + n) }
  | .fault f => .fault f

theorem Failure.later_onLine (n : Nat) (cause : Cause) (line : Nat) :
    (Failure.onLine cause line).later n = Failure.onLine (cause.later n) (line + n) := by
  simp [Failure.onLine, Failure.later]

@[simp] theorem Cause.code_later (n : Nat) (cause : Cause) : (cause.later n).code = cause.code := by
  cases cause <;> rfl

@[simp] theorem Cause.category_later (n : Nat) (cause : Cause) :
    (cause.later n).category = cause.category := by
  cases cause <;> rfl

/-- The line of a token is not told in the description of a cause. -/
@[simp] theorem Cause.detail_later (n : Nat) (cause : Cause) :
    (cause.later n).detail = cause.detail := by
  cases cause <;> rfl

/-- How many characters a token is written with, unless it is text. -/
def Token.width (t : Token) : Nat :=
  match t.kind with
  | .string => t.value.length + 2
  | .eof => 0
  | _ => t.value.length

/-- How many characters there are in the token that a failure is about, if it is about one. -/
def Failure.width : Failure → Nat
  | .error ⟨.unexpectedToken got, _, _⟩ => got.width
  | .error ⟨.wanted _ got, _, _⟩ => got.width
  | _ => 0

/-- The place of a failure: where the token begins that it is about, or else where the lexer was
left. -/
def Halt.place (halt : Halt) : Nat :=
  halt.left.position - halt.failure.width

namespace Lexer

/-- Two lexers that give the same tokens one by one, on lines that are later by `n` in the second
one from some place on. -/
structure Lockstep (place n : Nat) (sim : Lexer → Lexer → Prop) : Prop where
  token : ∀ {s s' s₁ : Lexer} {t : Token}, sim s s' → s.next = (.ok t, s₁) →
    ∃ m s₁', s'.next = (.ok (t.later m), s₁') ∧ sim s₁ s₁' ∧
      (t.kind ≠ .text → place ≤ s₁.position - t.width → m = n)
  failure : ∀ {s s' s₁ : Lexer} {f : Failure}, sim s s' → s.next = (.error f, s₁) →
    ∃ m s₁', s'.next = (.error (f.later m), s₁') ∧ (place ≤ s₁.position - f.width → m = n)

theorem position_le_next (s : Lexer) : s.position ≤ s.next.2.position := by
  obtain ⟨passed, moves⟩ := next_moves s
  rw [moves.position]
  exact Nat.le_add_right _ _

end Lexer

namespace Parse

open Lexer

variable {place n : Nat} {sim : Lexer → Lexer → Prop} {α β : Type}

/-- Two lexers in lockstep in some mode, with fewer than so many tokens ahead. -/
structure At (sim : Lexer → Lexer → Prop) (room : Nat) (mode : Mode) (s s' : Lexer) : Prop where
  sim : sim s s'
  mode : s.mode = mode
  size : s.size < room
  size_eq : s'.size = s.size

/-- Two results that agree: what is made is related where the lexers stand, or the failures differ
in lines only. -/
inductive Agrees (place n : Nat) (sim : Lexer → Lexer → Prop) (room : Nat) (post : α → Mode)
    (R : α → α → Lexer → Prop) :
    Except Halt (α × Cursor) → Except Halt (α × Cursor) → Prop
  | ok {a a' : α} {s s' : Lexer} (made : R a a' s) (there : At sim room (post a) s s') :
    Agrees place n sim room post R (.ok (a, .ofLexer s)) (.ok (a', .ofLexer s'))
  | error {halt halt' : Halt} {m : Nat} (failure : halt'.failure = halt.failure.later m)
    (shift : place ≤ halt.place → m = n) :
    Agrees place n sim room post R (.error halt) (.error halt')

/-- What is made is the same. -/
def Same (a a' : α) (_ : Lexer) : Prop :=
  a' = a

/-- What is made is the same token, on a later line. -/
def Seen (place n : Nat) (t t' : Token) (s : Lexer) : Prop :=
  ∃ m, t' = t.later m ∧ (place ≤ s.position - t.width → m = n)

/-- What is made of a look ahead is the same, and if it is true then a token of a kind is ahead. The
lexer stays where it is. -/
def Looked (kind : TokenKind) (s : Lexer) (yes yes' : Bool) (s₁ : Lexer) : Prop :=
  s₁ = s ∧ yes' = yes ∧ (yes = true → ∃ t, s.next.1 = .ok t ∧ t.kind = kind)

variable {room : Nat} {post : α → Mode} {post' : β → Mode} {R : α → α → Lexer → Prop}
  {R' : β → β → Lexer → Prop} {s s' : Lexer}

theorem Agrees.bind {p q : Parse α} {f g : α → Parse β} {c c' : Cursor}
    (h : Agrees place n sim room post R (p c) (q c'))
    (h' : ∀ a a' s s', R a a' s → At sim room (post a) s s' →
      Agrees place n sim room post' R' (f a (.ofLexer s)) (g a' (.ofLexer s'))) :
    Agrees place n sim room post' R' ((p >>= f) c) ((q >>= g) c') := by
  have run : (p >>= f) c = (p c >>= fun (a, c') => f a c') := rfl
  have run' : (q >>= g) c' = (q c' >>= fun (a, c') => g a c') := rfl
  rw [run, run']
  generalize p c = r at h ⊢
  generalize q c' = r' at h ⊢
  cases h with
  | ok made there => exact h' _ _ _ _ made there
  | error failure shift => exact .error failure shift

theorem Agrees.imp {r r' : Except Halt (α × Cursor)} {Q : α → α → Lexer → Prop}
    (h : Agrees place n sim room post R r r') (imp : ∀ a a' s, R a a' s → Q a a' s) :
    Agrees place n sim room post Q r r' := by
  cases h with
  | ok made there => exact .ok (imp _ _ _ made) there
  | error failure shift => exact .error failure shift

theorem Agrees.ite {c : Prop} [Decidable c] {p q p' q' : Parse α} {x x' : Cursor}
    (yes : c → Agrees place n sim room post R (p x) (p' x'))
    (no : ¬c → Agrees place n sim room post R (q x) (q' x')) :
    Agrees place n sim room post R ((if c then p else q) x) ((if c then p' else q') x') := by
  by_cases h : c
  · rw [if_pos h, if_pos h]
    exact yes h
  · rw [if_neg h, if_neg h]
    exact no h

theorem Agrees.pure {a a' : α} (made : R a a' s) (there : At sim room (post a) s s') :
    Agrees place n sim room post R ((pure a : Parse α) (.ofLexer s))
      ((pure a' : Parse α) (.ofLexer s')) :=
  .ok made there

/-- A failure over a token that has been read. -/
theorem fail_agrees {t t' : Token} {c : Token → Cause} (seen : Seen place n t t' s)
    (later : ∀ m, c (t.later m) = (c t).later m)
    (width : (Failure.onLine (c t) t.line).width = t.width) :
    Agrees place n sim room post R ((fail (c t) t.line : Parse α) (.ofLexer s))
      ((fail (c t') t'.line : Parse α) (.ofLexer s')) := by
  obtain ⟨m, rfl, shift⟩ := seen
  refine .error (m := m) ?_ fun behind => shift ?_
  · rw [later]
    exact (Failure.later_onLine m (c t) t.line).symm
  · unfold Halt.place at behind
    rw [← width]
    exact behind

/-- A failure at the end of the source. -/
theorem fail_end_agrees {t t' : Token} {cause : Cause} (seen : Seen place n t t' s)
    (ended : t.kind = .eof) (later : ∀ m, cause = cause.later m)
    (width : (Failure.onLine cause t.line).width = 0) :
    Agrees place n sim room post R ((fail cause t.line : Parse α) (.ofLexer s))
      ((fail cause t'.line : Parse α) (.ofLexer s')) := by
  refine fail_agrees (c := fun _ => cause) seen later ?_
  rw [width, Token.width, ended]

/-- A fault is told of no line. -/
theorem fault_agrees {f : Fault} {c c' : Cursor} :
    Agrees place n sim room post R ((fault f : Parse α) c) ((fault f : Parse α) c') :=
  .error (m := n) rfl fun _ => rfl

theorem Agrees.mono {room' : Nat} {r r' : Except Halt (α × Cursor)}
    (h : Agrees place n sim room post R r r') (le : room ≤ room') :
    Agrees place n sim room' post R r r' := by
  cases h with
  | ok made there =>
    exact .ok made ⟨there.sim, there.mode, Nat.lt_of_lt_of_le there.size le, there.size_eq⟩
  | error failure shift => exact .error failure shift

theorem At.mono {room' : Nat} {mode : Mode} (h : At sim room mode s s') (le : room ≤ room') :
    At sim room' mode s s' :=
  ⟨h.sim, h.mode, Nat.lt_of_lt_of_le h.size le, h.size_eq⟩

section

variable (lock : Lockstep place n sim)

include lock

/-- Lexers in lockstep have equally many tokens ahead. -/
theorem size_eq_of_sim (together : sim s s') : s'.size = s.size := by
  generalize long : s.rest.length = k
  induction k using Nat.strongRecOn generalizing s s' with
  | ind k ih =>
    rcases next_cases s with ⟨a, s₁, step⟩ | ⟨s₁, ended⟩ | ⟨failure, s₁, found⟩
    · have less := step.rest_lt
      have whole := size_of_step step
      obtain ⟨proper, line, found⟩ := step
      obtain ⟨m, s₁', found', together', -⟩ := lock.token together found
      have step' : Step s' a s₁' := ⟨proper, _, found'⟩
      rw [whole, size_of_step step', ih _ (long ▸ less) together' rfl]
    · obtain ⟨line, found⟩ := ended
      obtain ⟨m, s₁', found', -⟩ := lock.token together found
      rw [size, size, scan_of_end found rfl, scan_of_end found' rfl]
      rfl
    · obtain ⟨m, s₁', found', -⟩ := lock.failure together found
      rw [size, size, scan_of_failure found, scan_of_failure found']
      rfl

theorem at_of_sim (together : sim s s') (small : s.size < room) : At sim room s.mode s s' :=
  ⟨together, rfl, small, size_eq_of_sim lock together⟩

/-! ### Single tokens -/

/-- Both runs read the same token, or fail in the same way. -/
theorem read_agrees {f g : Token → Parse β} (together : sim s s')
    (h : ∀ t m s₁ s₁', s.next = (.ok t, s₁) → sim s₁ s₁' →
      (t.kind ≠ .text → place ≤ s₁.position - t.width → m = n) →
      Agrees place n sim room post' R' (f t (.ofLexer s₁)) (g (t.later m) (.ofLexer s₁'))) :
    Agrees place n sim room post' R' ((read >>= f) (.ofLexer s)) ((read >>= g) (.ofLexer s')) := by
  have run : (read >>= f) (.ofLexer s) = (read (.ofLexer s) >>= fun (t, c') => f t c') := rfl
  have run' : (read >>= g) (.ofLexer s') = (read (.ofLexer s') >>= fun (t, c') => g t c') := rfl
  rw [run, run', read_ofLexer, read_ofLexer]
  cases found : s.next with
  | mk result s₁ =>
    cases result with
    | error failure =>
      obtain ⟨m, s₁', found', shift⟩ := lock.failure together found
      rw [found']
      exact .error rfl shift
    | ok t =>
      obtain ⟨m, s₁', found', together', shift⟩ := lock.token together found
      rw [found']
      exact h t m s₁ s₁' found together' shift

/-- Behind a token there is one token less. -/
theorem at_of_token {mode : Mode} {s₁ s₁' : Lexer} {t : Token} (at' : At sim (room + 1) mode s s')
    (found : s.next = (.ok t, s₁)) (proper : t.kind ≠ .eof) (together : sim s₁ s₁') :
    t.kind.modeBefore = mode ∧ At sim room t.kind.modeAfter s₁ s₁' := by
  have step : Step s t.terminal s₁ := ⟨proper, t.line, found⟩
  have less := size_of_step step
  have small := at'.size
  refine ⟨step.modeBefore.trans at'.mode, together, step.mode, by omega, ?_⟩
  exact size_eq_of_sim lock together

/-- At the end there are no more tokens. -/
theorem at_of_end {mode : Mode} {s₁ s₁' : Lexer} {t : Token} (at' : At sim (room + 1) mode s s')
    (found : s.next = (.ok t, s₁)) (ended : t.kind = .eof) (together : sim s₁ s₁') :
    At sim (room + 1) mode s₁ s₁' := by
  rcases next_cases s with ⟨a, s₂, step⟩ | ⟨s₂, ends⟩ | ⟨failure, s₂, broken⟩
  · obtain ⟨proper, line, found'⟩ := step
    rw [found] at found'
    cases found'
    exact absurd ended proper
  · have again := ends.again
    obtain ⟨skipped, -, rfl⟩ := ends.ahead
    obtain ⟨line, found'⟩ := ends
    rw [found] at found'
    cases found'
    have nothing : (s.advance skipped []).size = 0 := by
      have found' : (s.advance skipped []).next = (.ok ⟨.eof, "", line⟩, s.advance skipped []) :=
        Prod.ext (again.1.symm.trans (by rw [found])) again.2
      rw [size, scan_of_end found' rfl]
      rfl
    refine ⟨together, at'.mode, ?_, size_eq_of_sim lock together⟩
    rw [nothing]
    exact Nat.succ_pos room
  · rw [found] at broken
    cases broken

theorem next_agrees (at' : At sim (room + 1) .expression s s') :
    Agrees place n sim room (fun t => t.kind.modeAfter)
      (fun t t' s₁ => Seen place n t t' s₁ ∧ s.next.1 = .ok t) (next (.ofLexer s))
      (next (.ofLexer s')) := by
  refine read_agrees lock at'.sim fun t m s₁ s₁' found together shift => ?_
  have noText : t.kind ≠ .text := fun text => by
    have step : Step s t.terminal s₁ := ⟨by rw [Token.terminal, text]; exact nofun, t.line, found⟩
    have before := step.modeBefore.trans at'.mode
    rw [Token.terminal, text] at before
    cases before
  by_cases ended : t.kind = .eof
  · rw [if_pos ended, if_pos (show (t.later m).kind = .eof from ended)]
    exact fail_end_agrees ⟨m, rfl, shift noText⟩ ended (fun _ => rfl) rfl
  · rw [if_neg ended, if_neg (show ¬(t.later m).kind = .eof from ended)]
    exact .ok ⟨⟨m, rfl, shift noText⟩, by rw [found]⟩ (at_of_token lock at' found ended together).2

theorem expect_agrees (kind : TokenKind) (want : Want)
    (at' : At sim (room + 1) .expression s s') :
    Agrees place n sim room (fun _ => kind.modeAfter) (fun t t' _ => t'.value = t.value)
      (expect kind want (.ofLexer s)) (expect kind want (.ofLexer s')) := by
  refine (next_agrees lock at').bind fun t t' s₁ s₁' ⟨seen, _⟩ there => ?_
  have same : t'.kind = t.kind ∧ t'.value = t.value := by
    obtain ⟨m, rfl, -⟩ := seen
    exact ⟨rfl, rfl⟩
  rw [same.1]
  refine .ite (fun known => ?_) fun _ => ?_
  · subst known
    exact .pure same.2 there
  · exact fail_agrees seen (fun _ => rfl) rfl

theorem expectOperator_agrees (symbol : String) (want : Want)
    (at' : At sim (room + 1) .expression s s') :
    Agrees place n sim room (fun _ => .expression) Same (expectOperator symbol want (.ofLexer s))
      (expectOperator symbol want (.ofLexer s')) := by
  refine (next_agrees lock at').bind fun t t' s₁ s₁' ⟨seen, _⟩ there => ?_
  have same : t'.isOperator symbol = t.isOperator symbol := by
    obtain ⟨m, rfl, -⟩ := seen
    rfl
  rw [same]
  refine .ite (fun known => ?_) fun _ => fail_agrees seen (fun _ => rfl) rfl
  have kind : t.kind = .operator := by
    simp only [Token.isOperator, Bool.and_eq_true, decide_eq_true_eq] at known
    exact known.1
  rw [kind] at there
  exact .pure rfl there

theorem expectTagEnd_agrees (at' : At sim (room + 1) .expression s s') :
    Agrees place n sim room (fun _ => .text) Same (expectTagEnd (.ofLexer s))
      (expectTagEnd (.ofLexer s')) :=
  (expect_agrees lock _ _ at').bind fun _ _ _ _ _ there => .pure rfl there

theorem identifier_agrees (at' : At sim (room + 1) .expression s s') :
    Agrees place n sim room (fun _ => .expression) Same (identifier (.ofLexer s))
      (identifier (.ofLexer s')) :=
  (expect_agrees lock _ _ at').bind fun _ _ _ _ same there => .pure same there

theorem string_agrees (at' : At sim (room + 1) .expression s s') :
    Agrees place n sim room (fun _ => .expression) Same (string (.ofLexer s))
      (string (.ofLexer s')) :=
  (expect_agrees lock _ _ at').bind fun _ _ _ _ same there => .pure same there

theorem peek_agrees (at' : At sim room .expression s s') :
    Agrees place n sim room (fun _ => .expression)
      (fun t t' s₁ => s₁ = s ∧ s.next.1 = .ok t ∧ ∃ m, t' = t.later m)
      (peek (.ofLexer s)) (peek (.ofLexer s')) := by
  rw [peek_ofLexer, peek_ofLexer]
  cases found : s.next with
  | mk result s₁ =>
    cases result with
    | error failure =>
      obtain ⟨m, s₁', found', shift⟩ := lock.failure at'.sim found
      rw [found']
      refine .error rfl fun behind => shift ?_
      have moves := position_le_next s
      rw [found] at moves
      unfold Halt.place at behind
      dsimp only at moves behind
      omega
    | ok t =>
      obtain ⟨m, s₁', found', -⟩ := lock.token at'.sim found
      rw [found']
      exact .ok ⟨rfl, rfl, m, rfl⟩ at'

theorem sees_agrees (kind : TokenKind) (at' : At sim room .expression s s') :
    Agrees place n sim room (fun _ => .expression) (Looked kind s) (sees kind (.ofLexer s))
      (sees kind (.ofLexer s')) := by
  refine (peek_agrees lock at').bind fun t t' s₁ s₁' ⟨stays, found, m, later⟩ there => ?_
  subst stays
  subst later
  exact .pure ⟨rfl, rfl, fun yes => ⟨t, found, of_decide_eq_true yes⟩⟩ there

theorem seesOperator_agrees (symbol : String) (at' : At sim room .expression s s') :
    Agrees place n sim room (fun _ => .expression) (Looked .operator s)
      (seesOperator symbol (.ofLexer s)) (seesOperator symbol (.ofLexer s')) := by
  refine (peek_agrees lock at').bind fun t t' s₁ s₁' ⟨stays, found, m, later⟩ there => ?_
  subst stays
  subst later
  refine .pure ⟨rfl, rfl, fun yes => ⟨t, found, ?_⟩⟩ there
  simp only [Token.isOperator, Bool.and_eq_true, decide_eq_true_eq] at yes
  exact yes.1

/-- What has been seen is read next. -/
theorem next_of_looked {kind : TokenKind} (looked : ∃ t, s.next.1 = .ok t ∧ t.kind = kind)
    (at' : At sim room .expression s s') :
    Agrees place n sim room (fun _ => kind.modeAfter) (fun t t' _ => t'.value = t.value)
      (next (.ofLexer s)) (next (.ofLexer s')) := by
  obtain ⟨t, seen, rfl⟩ := looked
  have made := next_agrees lock (at'.mono (Nat.le_succ room))
  generalize next (.ofLexer s) = r at made ⊢
  generalize next (.ofLexer s') = r' at made ⊢
  cases made with
  | error failure shift => exact .error failure shift
  | ok made there =>
    obtain ⟨⟨m, rfl, -⟩, found⟩ := made
    rw [seen, Except.ok.injEq] at found
    subst found
    exact .ok rfl there

/-! ### Expressions -/

omit lock in
theorem numeral_agrees (text : String) (at' : At sim room .expression s s') :
    Agrees place n sim room (fun _ => .expression) Same (numeral text (.ofLexer s))
      (numeral text (.ofLexer s')) := by
  unfold numeral
  refine .ite (fun _ => .pure rfl at') fun _ => ?_
  cases Number.parse? text.toList with
  | none => exact fault_agrees
  | some i => exact .pure rfl at'

/-- Behind a token that may be a minus sign. -/
theorem isMinus_agrees (t : Token) (m : Nat) (at' : At sim room t.kind.modeAfter s s') :
    Agrees place n sim room (fun _ => t.kind.modeAfter)
      (fun yes yes' s₁ => Looked .number s yes yes' s₁ ∧ (yes = true → t.kind = .operator))
      (isMinus t (.ofLexer s)) (isMinus (t.later m) (.ofLexer s')) := by
  refine .ite (c := t.isOperator "-" = true) (fun minus => ?_)
    fun _ => .pure ⟨⟨rfl, rfl, nofun⟩, nofun⟩ at'
  have kind : t.kind = .operator := by
    simp only [Token.isOperator, Bool.and_eq_true, decide_eq_true_eq] at minus
    exact minus.1
  rw [kind] at at' ⊢
  exact (sees_agrees lock .number at').imp fun _ _ _ looked => ⟨looked, fun _ => rfl⟩

/-- The numeral behind a minus sign, when it has been seen. -/
theorem negated_agrees (looked : ∃ t, s.next.1 = .ok t ∧ t.kind = .number)
    (at' : At sim room .expression s s') :
    Agrees place n sim room (fun _ => .expression) Same (negated (.ofLexer s))
      (negated (.ofLexer s')) := by
  refine (next_of_looked lock looked at').bind fun t t' s₁ s₁' same there => ?_
  rw [same]
  refine (numeral_agrees t.value there).bind fun v v' s₂ s₂' same there => ?_
  rw [same]
  exact .pure rfl there

theorem filterSpec_agrees (at' : At sim (room + 1) .expression s s') :
    Agrees place n sim room (fun _ => .expression) Same (filterSpec (.ofLexer s))
      (filterSpec (.ofLexer s')) := by
  refine (identifier_agrees lock at').bind fun name _ s₁ s₁' same there => ?_
  cases same
  refine Agrees.bind (seesOperator_agrees lock ":" there) ?_
  rintro yes _ s₂ s₂' ⟨rfl, rfl, looked⟩ there
  refine .ite (fun colon => ?_) fun _ => .pure rfl there
  refine (next_of_looked lock (looked colon) there).bind fun _ _ s₃ s₃' _ there => ?_
  refine (next_agrees lock (there.mono (Nat.le_succ _))).bind fun t t' s₄ s₄' ⟨seen, _⟩ there => ?_
  have again := seen
  obtain ⟨m, rfl, -⟩ := seen
  refine Agrees.bind (isMinus_agrees lock t m there) ?_
  rintro yes _ s₅ s₅' ⟨⟨rfl, rfl, looked⟩, kind⟩ there
  refine .ite (fun minus => ?_) fun _ => .ite
    (c := t.kind = .string ∨ t.kind = .number ∨ t.kind = .identifier) (fun known => ?_) fun _ => ?_
  · rw [kind minus] at there
    refine (next_of_looked lock (looked minus) there).bind fun i i' s₆ s₆' same there => ?_
    rw [same]
    exact .pure rfl there
  · have mode : t.kind.modeAfter = .expression := by
      rcases known with known | known | known <;> rw [known] <;> rfl
    rw [mode] at there
    exact .pure rfl there
  · exact fail_agrees again (fun _ => rfl) rfl

theorem filter?_agrees (at' : At sim room .expression s s') :
    Agrees place n sim room (fun _ => .expression) Same (filter? (.ofLexer s))
      (filter? (.ofLexer s')) := by
  refine Agrees.bind (sees_agrees lock .pipe at') ?_
  rintro yes _ s₁ s₁' ⟨rfl, rfl, looked⟩ there
  refine .ite (fun bar => ?_) fun _ => .pure rfl there
  refine (next_of_looked lock (looked bar) there).bind fun _ _ s₂ s₂' _ there => ?_
  refine (filterSpec_agrees lock (there.mono (Nat.le_succ _))).bind fun f f' s₃ s₃' same there => ?_
  rw [same]
  exact .pure rfl there

/-- Behind a token that is nothing unless it is a minus sign before a numeral. -/
theorem minus_agrees {p : Parse α} {c : Token → Cause} {t : Token} {m : Nat}
    (seen : Seen place n t (t.later m) s) (at' : At sim room t.kind.modeAfter s s')
    (later : ∀ m, c (t.later m) = (c t).later m)
    (width : (Failure.onLine (c t) t.line).width = t.width)
    (number : ∀ {s s' : Lexer}, (∃ t, s.next.1 = .ok t ∧ t.kind = .number) →
      At sim room .expression s s' →
      Agrees place n sim room post R (p (.ofLexer s)) (p (.ofLexer s'))) :
    Agrees place n sim room post R
      ((do if ← isMinus t then p else fail (c t) t.line : Parse α) (.ofLexer s))
      ((do if ← isMinus (t.later m) then p else fail (c (t.later m)) (t.later m).line : Parse α)
        (.ofLexer s')) := by
  refine Agrees.bind (isMinus_agrees lock t m at') ?_
  rintro yes _ s₁ s₁' ⟨⟨rfl, rfl, looked⟩, kind⟩ there
  refine .ite (fun minus => ?_) fun _ => fail_agrees seen later width
  rw [kind minus] at there
  exact number (looked minus) there

theorem literal_agrees (at' : At sim (room + 1) .expression s s') :
    Agrees place n sim room (fun _ => .expression) Same (literal (.ofLexer s))
      (literal (.ofLexer s')) := by
  refine (next_agrees lock at').bind fun t t' s₁ s₁' ⟨seen, _⟩ there => ?_
  have again := seen
  obtain ⟨m, rfl, -⟩ := seen
  simp only [Token.kind_later, Token.value_later]
  cases kind : t.kind with
  | string =>
    rw [kind] at there
    exact .pure rfl there
  | number =>
    rw [kind] at there
    exact numeral_agrees t.value there
  | identifier =>
    rw [kind] at there
    cases constant? t.value with
    | none => exact fail_agrees again (fun _ => rfl) rfl
    | some v => exact .pure rfl there
  | _ => exact minus_agrees lock again there (fun _ => rfl) rfl (negated_agrees lock)

/-- What two readers of arguments agree on. -/
def ArgumentsAgree (place n : Nat) (sim : Lexer → Lexer → Prop) (room : Nat)
    (p p' : Parse (List Expr)) : Prop :=
  ∀ {s s' : Lexer}, At sim room .expression s s' →
    Agrees place n sim room (fun _ => .expression) Same (p (.ofLexer s)) (p' (.ofLexer s'))

theorem primaryWith_agrees {p p' : Parse (List Expr)}
    (inside : ArgumentsAgree place n sim room p p') (at' : At sim (room + 1) .expression s s') :
    Agrees place n sim room (fun _ => .expression) Same (primaryWith p (.ofLexer s))
      (primaryWith p' (.ofLexer s')) := by
  refine (next_agrees lock at').bind fun t t' s₁ s₁' ⟨seen, _⟩ there => ?_
  have again := seen
  obtain ⟨m, rfl, -⟩ := seen
  simp only [Token.kind_later, Token.value_later]
  cases kind : t.kind with
  | string =>
    rw [kind] at there
    exact .pure rfl there
  | number =>
    rw [kind] at there
    refine (numeral_agrees t.value there).bind fun v _ s₂ s₂' same there => ?_
    rw [same]
    exact .pure rfl there
  | identifier =>
    rw [kind] at there
    cases constant? t.value with
    | some v => exact .pure rfl there
    | none =>
      refine Agrees.bind (seesOperator_agrees lock "(" there) ?_
      rintro yes _ s₂ s₂' ⟨rfl, rfl, looked⟩ there
      refine .ite (fun call => ?_) fun _ => .pure rfl there
      refine (next_of_looked lock (looked call) there).bind fun _ _ s₃ s₃' _ there => ?_
      refine (inside there).bind fun es _ s₄ s₄' same there => ?_
      rw [same]
      exact .pure rfl there
  | _ =>
    refine minus_agrees lock again there (fun _ => rfl) rfl fun looked there => ?_
    refine (negated_agrees lock looked there).bind fun v _ s₂ s₂' same there => ?_
    rw [same]
    exact .pure rfl there

theorem expressionWith_agrees {p p' : Parse (List Expr)}
    (inside : ArgumentsAgree place n sim room p p') (at' : At sim (room + 1) .expression s s') :
    Agrees place n sim room (fun _ => .expression) Same (expressionWith p (.ofLexer s))
      (expressionWith p' (.ofLexer s')) := by
  refine (primaryWith_agrees lock inside at').bind fun e _ s₁ s₁' same there => ?_
  rw [same]
  refine (filter?_agrees lock there).bind fun f _ s₂ s₂' same there => ?_
  rw [same]
  cases f with
  | none => exact .pure rfl there
  | some f => exact .pure rfl there

theorem separator_agrees (at' : At sim (room + 1) .expression s s') :
    Agrees place n sim room (fun _ => .expression) Same (separator (.ofLexer s))
      (separator (.ofLexer s')) := by
  refine (next_agrees lock at').bind fun t t' s₁ s₁' ⟨seen, _⟩ there => ?_
  have again := seen
  obtain ⟨m, rfl, -⟩ := seen
  have operator : ∀ {symbol}, t.isOperator symbol = true → t.kind = .operator := fun known => by
    simp only [Token.isOperator, Bool.and_eq_true, decide_eq_true_eq] at known
    exact known.1
  refine .ite (c := t.isOperator ")" = true) (fun known => ?_) fun _ =>
    .ite (c := t.isOperator "," = true) (fun known => ?_) fun _ =>
      fail_agrees again (fun _ => rfl) rfl
  all_goals
    rw [operator known] at there
    exact .pure rfl there

omit lock in
/-- There is always room left. -/
theorem At.pos {mode : Mode} (at' : At sim room mode s s') : ∃ less, room = less + 1 :=
  Nat.exists_eq_add_one.mpr (Nat.zero_lt_of_lt at'.size)

omit lock in
/-- Both runs of a repetition are given one turn more than there are tokens ahead. -/
theorem repeating_agrees {p p' : Nat → Parse α} {mode : Mode} (at' : At sim room mode s s')
    (h : At sim (s.size + 1) mode s s' →
      Agrees place n sim (s.size + 1) post R (p (s.size + 1) (.ofLexer s))
        (p' (s.size + 1) (.ofLexer s'))) :
    Agrees place n sim room post R (repeating p (.ofLexer s)) (repeating p' (.ofLexer s')) := by
  have tight : At sim (s.size + 1) mode s s' :=
    ⟨at'.sim, at'.mode, Nat.lt_succ_self _, at'.size_eq⟩
  have turns : repeating p' (.ofLexer s') = p' (s.size + 1) (.ofLexer s') := by
    rw [← at'.size_eq]
    rfl
  rw [turns]
  exact (h tight).mono at'.size

/-- With a turn for each token that is left, in both runs. -/
theorem someArguments_agrees {p p' : Parse (List Expr)} {turns turns' : Nat}
    (inside : ∀ k ≤ room, ArgumentsAgree place n sim k p p') (enough : room < turns)
    (enough' : room < turns') (at' : At sim (room + 1) .expression s s') :
    Agrees place n sim room (fun _ => .expression) Same (someArguments p turns (.ofLexer s))
      (someArguments p' turns' (.ofLexer s')) := by
  induction turns generalizing turns' room s s' with
  | zero => omega
  | succ turns ih =>
    cases turns' with
    | zero => omega
    | succ turns' =>
      refine (expressionWith_agrees lock (inside room (Nat.le_refl _)) at').bind
        fun e _ s₁ s₁' same there => ?_
      rw [same]
      obtain ⟨less, rfl⟩ := there.pos
      refine ((separator_agrees lock there).mono (Nat.le_succ _)).bind
        fun more _ s₂ s₂' same there => ?_
      rw [same]
      refine .ite (fun _ => ?_) fun _ => .pure rfl there
      have inside' : ∀ k ≤ less, ArgumentsAgree place n sim k p p' :=
        fun k small => inside k (Nat.le_succ_of_le small)
      have behind := ih inside' (Nat.lt_of_succ_lt_succ enough) (Nat.lt_of_succ_lt_succ enough') there
      refine (behind.mono (Nat.le_succ _)).bind fun es _ s₃ s₃' same there => ?_
      rw [same]
      exact .pure rfl there

/-- Nested no deeper than there are tokens. -/
theorem argumentsUpTo_agrees {depth depth' : Nat} (enough : room ≤ depth)
    (enough' : room ≤ depth') :
    ArgumentsAgree place n sim room (argumentsUpTo depth) (argumentsUpTo depth') := by
  induction depth generalizing depth' room with
  | zero =>
    intro s s' at'
    obtain ⟨less, rfl⟩ := at'.pos
    omega
  | succ depth ih =>
    intro s s' at'
    obtain ⟨less, rfl⟩ := at'.pos
    cases depth' with
    | zero => omega
    | succ depth' =>
      refine Agrees.bind (seesOperator_agrees lock ")" at') ?_
      rintro yes _ s₁ s₁' ⟨rfl, rfl, looked⟩ there
      refine .ite (fun none => ?_) fun _ => repeating_agrees there fun tight => ?_
      · refine (next_of_looked lock (looked none) there).bind fun _ _ s₂ s₂' _ there => ?_
        exact .pure rfl there
      · have small := there.size
        refine (someArguments_agrees lock (fun k le => ih ?_ ?_) ?_ ?_ tight).mono
          (Nat.le_succ _) <;> omega

theorem arguments_agrees : ArgumentsAgree place n sim room arguments arguments :=
  fun at' => repeating_agrees at' fun tight =>
    argumentsUpTo_agrees lock (Nat.le_refl _) (Nat.le_refl _) tight

theorem primary_agrees (at' : At sim (room + 1) .expression s s') :
    Agrees place n sim room (fun _ => .expression) Same (primary (.ofLexer s))
      (primary (.ofLexer s')) :=
  primaryWith_agrees lock (arguments_agrees lock) at'

theorem expression_agrees (at' : At sim (room + 1) .expression s s') :
    Agrees place n sim room (fun _ => .expression) Same (expression (.ofLexer s))
      (expression (.ofLexer s')) :=
  expressionWith_agrees lock (arguments_agrees lock) at'

theorem condition_agrees (at' : At sim (room + 1) .expression s s') :
    Agrees place n sim room (fun _ => .expression) Same (condition (.ofLexer s))
      (condition (.ofLexer s')) := by
  refine (identifier_agrees lock at').bind fun path _ s₁ s₁' same there => ?_
  cases same
  refine Agrees.bind (sees_agrees lock .tagEnd there) ?_
  rintro yes _ s₂ s₂' ⟨rfl, rfl, -⟩ there
  refine .ite (fun _ => .pure rfl there) fun _ => ?_
  refine (next_agrees lock (there.mono (Nat.le_succ _))).bind fun t t' s₃ s₃' ⟨seen, _⟩ there => ?_
  have again := seen
  obtain ⟨m, rfl, -⟩ := seen
  refine .ite (c := (t.kind = .operator && (Comparison.ofSymbol? t.value).isSome) = true)
    (fun known => ?_) fun _ => fail_agrees again (fun _ => rfl) rfl
  have kind : t.kind = .operator := of_decide_eq_true (Bool.and_eq_true_iff.mp known).1
  rw [kind] at there
  refine (literal_agrees lock (there.mono (Nat.le_succ _))).bind fun v _ s₄ s₄' same there => ?_
  rw [same]
  exact .pure rfl there

end

end Parse
end Stencil
