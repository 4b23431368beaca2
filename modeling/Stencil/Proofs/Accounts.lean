/-
# Readers are accounted for

Of each reader of tokens there is an account of its run, from wherever in a source
the lexer may have been led to: in it the lexer is asked only where it can be led
to, numerals are converted only as the lexer gave them, and no repetition is
exhausted, since each turn takes a token and there is a turn for each token ahead.
So the readers are followed together with a bound on the tokens ahead, as two
lexers in lockstep are. What comes of a run is something made where there are
fewer tokens ahead, or a failure over the source.

Key definitions: `Failure.OfSource`, `Failure.Contained`, `Parse.Event.Sound`,
`Parse.Accounted`.
Key theorems: `Parse.next_accounted`, `Parse.expression_accounted`,
`Parse.condition_accounted`.
-/
import Stencil.Proofs.Asked

namespace Stencil

open Lexer

/-- Whether a cause lies in the source of a template. -/
def Cause.isOfSource : Cause → Bool
  | .unterminatedString => true
  | .unterminatedComment => true
  | .unclosedTag => true
  | .unclosedBody _ => true
  | .unexpectedToken _ => true
  | .wanted _ _ => true
  | _ => false

/-- A failure over the source of a template. -/
def Failure.OfSource : Failure → Prop
  | .error e => e.cause.isOfSource = true
  | .fault f => f = .strayCharacter ∨ f = .integerTooLong

namespace Cause

variable {cause : Cause}

theorem code_of_isOfSource (h : cause.isOfSource = true) : cause.code ≠ .unsupportedOp := by
  cases cause with
  | wanted want _ => cases want <;> exact nofun
  | unterminatedString => exact nofun
  | unterminatedComment => exact nofun
  | unclosedTag => exact nofun
  | unclosedBody _ => exact nofun
  | unexpectedToken _ => exact nofun
  | _ => exact absurd h nofun

theorem category_of_isOfSource (h : cause.isOfSource = true) :
    cause.category = .lexical ∨ cause.category = .grammatical := by
  cases cause with
  | unterminatedString => exact .inl rfl
  | unterminatedComment => exact .inl rfl
  | unclosedTag => exact .inr rfl
  | unclosedBody _ => exact .inr rfl
  | unexpectedToken _ => exact .inr rfl
  | wanted _ _ => exact .inr rfl
  | _ => exact absurd h nofun

end Cause

/-- A failure over a source: of the lexer or of the grammar and on a line of the source, or one of
two faults. -/
def Failure.Contained (source : String) : Failure → Prop
  | .error e =>
    (e.cause.category = .lexical ∨ e.cause.category = .grammatical) ∧
      ∃ line : Nat, e.line = some (line : Int) ∧ 1 ≤ line ∧ line ≤ 1 + newlines source.toList
  | .fault f => f = .strayCharacter ∨ f = .integerTooLong

/-- A failure with a cause that lies in a source, contained in this one. The category alone does not
tell so: what others raise may be of any. -/
structure Failure.Explained (source : String) (f : Failure) : Prop where
  ofSource : f.OfSource
  contained : f.Contained source

namespace Failure

theorem OfSource.withTemplate {f : Failure} (h : f.OfSource) (name : String) :
    (f.withTemplate name).OfSource := by
  cases f with
  | error e =>
    show (e.withTemplate name).cause.isOfSource = true
    rw [TemplateError.cause_withTemplate]
    exact h
  | fault f => exact h

theorem explained_onLine {source : String} {cause : Cause} {line : Nat}
    (proper : cause.isOfSource = true) (inside : 1 ≤ line ∧ line ≤ 1 + newlines source.toList) :
    (onLine cause line).Explained source :=
  ⟨proper, Cause.category_of_isOfSource proper, line, rfl, inside⟩

theorem explained_fault {source : String} {f : Fault}
    (proper : f = .strayCharacter ∨ f = .integerTooLong) : (fault f).Explained source :=
  ⟨proper, proper⟩

end Failure

/-- A failure of the lexer lies in the source. -/
theorem Lexer.Reached.explained {source : String} {s : Lexer} {failure : Failure}
    (there : Reached source s) (broken : s.next.1 = .error failure) : failure.Explained source := by
  have back := there.next.line
  have front := there.line
  obtain ⟨g, ahead⟩ := exists_ahead s.mode s.rest
  rw [next_of_ahead ahead] at broken back
  cases g with
  | token skipped kind value written rest => cases broken
  | finish skipped => cases broken
  | stuck skipped failure rest =>
    cases broken
    generalize s.mode = m at ahead
    generalize s.rest = cs at ahead
    cases ahead with
    | unterminated passes unclosed => exact Failure.explained_onLine rfl back
    | stuck blank stuck first =>
      cases stuck with
      | stray strange => exact Failure.explained_fault (.inl rfl)
      | string known inside => exact Failure.explained_onLine rfl back

namespace Parse

/-- Something happens somewhere in a source: the lexer is asked where calls have led it, and a
numeral is converted that it gave. -/
def Event.Sound (source : String) : Event → Prop
  | .asked s => Reached source s
  | .converted text => ∃ t, Given source t ∧ t.kind = .number ∧ t.value = text
  | .exhausted => False

/-- A lexer somewhere in a source, with fewer than so many tokens ahead. -/
structure Within (source : String) (room : Nat) (s : Lexer) : Prop where
  reached : Reached source s
  size : s.size < room

/-- There is a sound account of a run from some place, to something that is `P` where there are
fewer than so many tokens ahead, or to a failure over the source. -/
inductive Accounted {α : Type} (source : String) (room : Nat) (P : α → Lexer → Prop) (p : Parse α)
    (s : Lexer) : Prop
  | made {es : List Event} {a : α} {s' : Lexer}
    (run : Runs p (.ofLexer s) es (.ok (a, .ofLexer s'))) (sound : ∀ e ∈ es, e.Sound source)
    (there : Within source room s') (holds : P a s')
  | failed {es : List Event} {halt : Halt} (run : Runs p (.ofLexer s) es (.error halt))
    (sound : ∀ e ∈ es, e.Sound source) (explained : halt.failure.Explained source)

/-- No matter what is made, and where. -/
def Anything {α : Type} (_ : α) (_ : Lexer) : Prop :=
  True

variable {α β : Type} {source : String} {room room' : Nat} {P Q : α → Lexer → Prop}
  {R : β → Lexer → Prop} {s : Lexer} {p : Parse α} {f : α → Parse β}

theorem Within.mono (h : Within source room s) (le : room ≤ room') : Within source room' s :=
  ⟨h.reached, Nat.lt_of_lt_of_le h.size le⟩

/-- There is always room left. -/
theorem Within.pos (h : Within source room s) : ∃ less, room = less + 1 :=
  Nat.exists_eq_add_one.mpr (Nat.zero_lt_of_lt h.size)

namespace Accounted

theorem pure {a : α} (holds : P a s) (there : Within source room s) :
    Accounted source room P (Pure.pure a) s :=
  .made .pure (List.forall_mem_nil _) there holds

theorem bind (h : Accounted source room P p s)
    (rest : ∀ a s', P a s' → Within source room s' → Accounted source room' R (f a) s') :
    Accounted source room' R (p >>= f) s := by
  cases h with
  | failed run sound explained => exact .failed run.bindFails sound explained
  | made run sound there holds =>
    cases rest _ _ holds there with
    | made run' sound' there' holds' =>
      exact .made (.bind run run') (List.forall_mem_append.mpr ⟨sound, sound'⟩) there' holds'
    | failed run' sound' explained =>
      exact .failed (.bind run run') (List.forall_mem_append.mpr ⟨sound, sound'⟩) explained

theorem imp (h : Accounted source room P p s) (imp : ∀ a s', P a s' → Q a s') :
    Accounted source room Q p s := by
  cases h with
  | made run sound there holds => exact .made run sound there (imp _ _ holds)
  | failed run sound explained => exact .failed run sound explained

theorem mono (h : Accounted source room P p s) (le : room ≤ room') :
    Accounted source room' P p s := by
  cases h with
  | made run sound there holds => exact .made run sound (there.mono le) holds
  | failed run sound explained => exact .failed run sound explained

theorem ite {c : Prop} [Decidable c] {q : Parse α} (yes : c → Accounted source room P p s)
    (no : ¬c → Accounted source room P q s) :
    Accounted source room P (if c then p else q) s := by
  by_cases h : c
  · rw [if_pos h]
    exact yes h
  · rw [if_neg h]
    exact no h

/-- A failure over a token that has been read. -/
theorem fail {cause : Cause} {t : Token} (given : Given source t)
    (proper : cause.isOfSource = true) : Accounted source room P (Parse.fail cause t.line) s :=
  .failed .fail (List.forall_mem_nil _) (Failure.explained_onLine proper given.line)

/-- A repetition is given one turn more than there are tokens ahead. -/
theorem repeating {q : Nat → Parse α} (here : Within source room s)
    (h : Within source (s.size + 1) s → Accounted source (s.size + 1) P (q (s.size + 1)) s) :
    Accounted source room P (Parse.repeating q) s := by
  cases h ⟨here.reached, Nat.lt_succ_self _⟩ with
  | made run sound there holds => exact .made (.repeating run) sound (there.mono here.size) holds
  | failed run sound explained => exact .failed (.repeating run) sound explained

end Accounted

/-! ### Single tokens -/

theorem size_of_ends {s' : Lexer} (h : Ends s s') : s'.size = 0 := by
  obtain ⟨line, -, -, behind⟩ := ofLexer_of_end h
  have scanned : s'.scan = .finish ⟨.eof, "", line⟩ s' := congrArg Cursor.ahead behind
  rw [size, scanned]
  rfl

/-- A read that fails, or that goes on behind a token or behind the end. -/
theorem read_accounted {f : Token → Parse β} (here : Within source (room + 1) s)
    (token : ∀ t s', Given source t → s.next.1 = .ok t → t.kind ≠ .eof → Within source room s' →
      Accounted source room' R (f t) s')
    (ended : ∀ t s', Given source t → t.kind = .eof → Within source (room + 1) s' →
      Accounted source room' R (f t) s') :
    Accounted source room' R (read >>= f) s := by
  have asked : ∀ e ∈ [Event.asked s], e.Sound source :=
    List.forall_mem_singleton.mpr here.reached
  have reading := read_ofLexer s
  have account := Runs.read (s := s)
  have next := here.reached.next
  -- What is read, with the run that the account is of.
  suffices whole : ∀ t s', s.next = (.ok t, s') → Accounted source room' R (f t) s' by
    cases found : s.next with
    | mk result s' =>
      rw [found] at reading
      cases result with
      | error failure =>
        rw [reading] at account
        exact .failed account.bindFails asked (here.reached.explained (congrArg Prod.fst found))
      | ok t =>
        rw [reading] at account
        cases whole t s' found with
        | made run sound there holds =>
          exact .made (.bind account run) (List.forall_mem_append.mpr ⟨asked, sound⟩) there holds
        | failed run sound explained =>
          exact .failed (.bind account run) (List.forall_mem_append.mpr ⟨asked, sound⟩) explained
  intro t s' found
  have given : Given source t := ⟨s, here.reached, congrArg Prod.fst found⟩
  have there : Reached source s' := by rwa [found] at next
  rcases next_cases s with ⟨a, s₁, step⟩ | ⟨s₁, ends⟩ | ⟨failure, s₁, broken⟩
  · have less := size_of_step step
    have small := here.size
    obtain ⟨proper, line, found'⟩ := step
    rw [found, Prod.mk.injEq, Except.ok.injEq] at found'
    obtain ⟨rfl, rfl⟩ := found'
    exact token _ _ given (congrArg Prod.fst found) proper ⟨there, by omega⟩
  · have none := size_of_ends ends
    obtain ⟨line, found'⟩ := ends
    rw [found, Prod.mk.injEq, Except.ok.injEq] at found'
    obtain ⟨rfl, rfl⟩ := found'
    exact ended _ _ given rfl ⟨there, by omega⟩
  · rw [found, Prod.mk.injEq] at broken
    cases broken.1

theorem next_accounted (here : Within source (room + 1) s) :
    Accounted source room (fun t _ => Given source t ∧ s.next.1 = .ok t) next s := by
  refine read_accounted here (fun t s' given found proper there => ?_) fun t s' given ended _ => ?_
  · rw [if_neg proper]
    exact .pure ⟨given, found⟩ there
  · rw [if_pos ended]
    exact .fail given rfl

theorem expect_accounted (kind : TokenKind) (want : Want) (here : Within source (room + 1) s) :
    Accounted source room Anything (expect kind want) s :=
  (next_accounted here).bind fun _ _ ⟨given, _⟩ there =>
    .ite (fun _ => .pure trivial there) fun _ => .fail given rfl

theorem expectOperator_accounted (symbol : String) (want : Want)
    (here : Within source (room + 1) s) :
    Accounted source room Anything (expectOperator symbol want) s :=
  (next_accounted here).bind fun _ _ ⟨given, _⟩ there =>
    .ite (fun _ => .pure trivial there) fun _ => .fail given rfl

theorem expectTagEnd_accounted (here : Within source (room + 1) s) :
    Accounted source room Anything expectTagEnd s :=
  (expect_accounted _ _ here).bind fun _ _ _ there => .pure trivial there

theorem identifier_accounted (here : Within source (room + 1) s) :
    Accounted source room Anything identifier s :=
  (expect_accounted _ _ here).bind fun _ _ _ there => .pure trivial there

theorem string_accounted (here : Within source (room + 1) s) :
    Accounted source room Anything string s :=
  (expect_accounted _ _ here).bind fun _ _ _ there => .pure trivial there

/-- A look ahead shows what is read next. -/
theorem peek_accounted (here : Within source room s) :
    Accounted source room (fun t s' => s'.next.1 = .ok t) peek s := by
  have asked : ∀ e ∈ [Event.asked s], e.Sound source :=
    List.forall_mem_singleton.mpr here.reached
  have looking := peek_ofLexer s
  have account := Runs.peek (s := s)
  cases found : s.next with
  | mk result s' =>
    rw [found] at looking
    cases result with
    | error failure =>
      rw [looking] at account
      exact .failed account asked (here.reached.explained (congrArg Prod.fst found))
    | ok t =>
      rw [looking] at account
      exact .made account asked here (congrArg Prod.fst found)

/-- If a look ahead is true then a token of a kind is read next. -/
def Shows (kind : TokenKind) (yes : Bool) (s : Lexer) : Prop :=
  yes = true → ∃ t, s.next.1 = .ok t ∧ t.kind = kind

theorem sees_accounted (kind : TokenKind) (here : Within source room s) :
    Accounted source room (Shows kind) (sees kind) s :=
  (peek_accounted here).bind fun t _ found there =>
    .pure (fun yes => ⟨t, found, of_decide_eq_true yes⟩) there

theorem seesOperator_accounted (symbol : String) (here : Within source room s) :
    Accounted source room (Shows .operator) (seesOperator symbol) s := by
  refine (peek_accounted here).bind fun t _ found there => .pure (fun yes => ⟨t, found, ?_⟩) there
  simp only [Token.isOperator, Bool.and_eq_true, decide_eq_true_eq] at yes
  exact yes.1

/-- What has been seen is read next. -/
theorem next_of_shown {kind : TokenKind} (seen : ∃ t, s.next.1 = .ok t ∧ t.kind = kind)
    (here : Within source room s) :
    Accounted source room (fun t _ => Given source t ∧ t.kind = kind) next s := by
  obtain ⟨t, found, rfl⟩ := seen
  refine (next_accounted (here.mono (Nat.le_succ room))).imp ?_
  rintro u s' ⟨given, found'⟩
  rw [found, Except.ok.injEq] at found'
  exact ⟨given, by rw [found']⟩

/-! ### Expressions -/

/-- A numeral that the lexer gave is converted. -/
theorem numeral_accounted {t : Token} (given : Given source t) (number : t.kind = .number)
    (here : Within source room s) : Accounted source room Anything (numeral t.value) s := by
  have converted : ∀ e ∈ [Event.converted t.value], e.Sound source :=
    List.forall_mem_singleton.mpr ⟨t, given, number, rfl⟩
  have account := @Runs.numeral t.value (.ofLexer s)
  have made := Runs.numeral_eq t.value (.ofLexer s)
  cases value : Number.value? t.value with
  | some v =>
    rw [value] at made
    rw [made] at account
    exact .made account converted here trivial
  | none =>
    rw [value] at made
    rw [made] at account
    exact .failed account converted (Failure.explained_fault (.inr rfl))

/-- The numeral behind a minus sign, when it has been seen. -/
theorem negated_accounted (seen : ∃ t, s.next.1 = .ok t ∧ t.kind = .number)
    (here : Within source room s) : Accounted source room Anything negated s := by
  refine (next_of_shown seen here).bind fun t s₁ ⟨given, number⟩ there => ?_
  exact (numeral_accounted given number there).bind fun _ _ _ there => .pure trivial there

theorem isMinus_accounted (t : Token) (here : Within source room s) :
    Accounted source room (Shows .number) (isMinus t) s :=
  .ite (fun _ => sees_accounted _ here) fun _ => .pure nofun here

theorem filterSpec_accounted (here : Within source (room + 1) s) :
    Accounted source room Anything filterSpec s := by
  refine (identifier_accounted here).bind fun name _ _ there => ?_
  refine (seesOperator_accounted ":" there).bind fun yes _ shown there => ?_
  refine .ite (fun colon => ?_) fun _ => .pure trivial there
  refine (next_of_shown (shown colon) there).bind fun _ _ _ there => ?_
  refine (next_accounted (there.mono (Nat.le_succ _))).bind fun t _ ⟨given, _⟩ there => ?_
  refine (isMinus_accounted t there).bind fun yes _ shown there => ?_
  refine .ite (fun minus => ?_) fun _ => .ite (fun _ => .pure trivial there) fun _ => ?_
  · exact (next_of_shown (shown minus) there).bind fun _ _ _ there => .pure trivial there
  · exact .fail given rfl

theorem filter?_accounted (here : Within source room s) :
    Accounted source room Anything filter? s := by
  refine (sees_accounted .pipe here).bind fun yes _ shown there => ?_
  refine .ite (fun bar => ?_) fun _ => .pure trivial there
  refine (next_of_shown (shown bar) there).bind fun _ _ _ there => ?_
  refine (filterSpec_accounted (there.mono (Nat.le_succ _))).bind fun _ _ _ there => ?_
  exact .pure trivial there

/-- Behind a token that is nothing unless it is a minus sign before a numeral. -/
theorem minus_accounted {cause : Cause} {t : Token} (given : Given source t)
    (proper : cause.isOfSource = true) (here : Within source room s)
    (number : ∀ {s : Lexer}, (∃ t, s.next.1 = .ok t ∧ t.kind = .number) → Within source room s →
      Accounted source room P p s) :
    Accounted source room P (do if ← isMinus t then p else fail cause t.line) s := by
  refine (isMinus_accounted t here).bind fun yes _ shown there => ?_
  exact .ite (fun minus => number (shown minus) there) fun _ => .fail given proper

theorem literal_accounted (here : Within source (room + 1) s) :
    Accounted source room Anything literal s := by
  refine (next_accounted here).bind fun t _ ⟨given, _⟩ there => ?_
  split
  · exact .pure trivial there
  · next number => exact numeral_accounted given number there
  · split
    · exact .pure trivial there
    · exact .fail given rfl
  · exact minus_accounted given rfl there negated_accounted

/-- A reader that can be accounted for wherever there are fewer than so many tokens ahead. -/
def Reads (source : String) (room : Nat) (p : Parse α) : Prop :=
  ∀ {s : Lexer}, Within source room s → Accounted source room Anything p s

theorem primaryWith_accounted {p : Parse (List Expr)} (inside : Reads source room p)
    (here : Within source (room + 1) s) :
    Accounted source room Anything (primaryWith p) s := by
  refine (next_accounted here).bind fun t _ ⟨given, _⟩ there => ?_
  split
  · exact .pure trivial there
  · next number =>
    exact (numeral_accounted given number there).bind fun _ _ _ there => .pure trivial there
  · split
    · exact .pure trivial there
    · refine (seesOperator_accounted "(" there).bind fun yes _ shown there => ?_
      refine .ite (fun call => ?_) fun _ => .pure trivial there
      refine (next_of_shown (shown call) there).bind fun _ _ _ there => ?_
      exact (inside there).bind fun _ _ _ there => .pure trivial there
  · refine minus_accounted given rfl there fun seen there => ?_
    exact (negated_accounted seen there).bind fun _ _ _ there => .pure trivial there

theorem expressionWith_accounted {p : Parse (List Expr)} (inside : Reads source room p)
    (here : Within source (room + 1) s) :
    Accounted source room Anything (expressionWith p) s := by
  refine (primaryWith_accounted inside here).bind fun _ _ _ there => ?_
  refine (filter?_accounted there).bind fun f _ _ there => ?_
  cases f <;> exact .pure trivial there

theorem separator_accounted (here : Within source (room + 1) s) :
    Accounted source room Anything separator s :=
  (next_accounted here).bind fun _ _ ⟨given, _⟩ there =>
    .ite (fun _ => .pure trivial there) fun _ =>
      .ite (fun _ => .pure trivial there) fun _ => .fail given rfl

/-- With a turn for each token that is left. -/
theorem someArguments_accounted {p : Parse (List Expr)} {turns : Nat}
    (inside : ∀ k ≤ room, Reads source k p) (enough : room < turns)
    (here : Within source (room + 1) s) :
    Accounted source room Anything (someArguments p turns) s := by
  induction turns generalizing room s with
  | zero => omega
  | succ turns ih =>
    refine (expressionWith_accounted (inside room (Nat.le_refl _)) here).bind
      fun _ _ _ there => ?_
    obtain ⟨less, rfl⟩ := there.pos
    refine ((separator_accounted there).mono (Nat.le_succ _)).bind fun _ _ _ there => ?_
    refine .ite (fun _ => ?_) fun _ => .pure trivial there
    have behind := ih (fun k small => inside k (Nat.le_succ_of_le small))
      (Nat.lt_of_succ_lt_succ enough) there
    exact (behind.mono (Nat.le_succ _)).bind fun _ _ _ there => .pure trivial there

/-- Nested no deeper than there are tokens. -/
theorem argumentsUpTo_accounted {depth : Nat} (enough : room ≤ depth) :
    Reads source room (argumentsUpTo depth) := by
  induction depth generalizing room with
  | zero =>
    intro s here
    obtain ⟨less, rfl⟩ := here.pos
    omega
  | succ depth ih =>
    intro s here
    obtain ⟨less, rfl⟩ := here.pos
    refine (seesOperator_accounted ")" here).bind fun yes _ shown there => ?_
    refine .ite (fun none => ?_) fun _ => .repeating there fun tight => ?_
    · exact (next_of_shown (shown none) there).bind fun _ _ _ there => .pure trivial there
    · have small := there.size
      refine (someArguments_accounted (fun k le => ih ?_) ?_ tight).mono (Nat.le_succ _) <;> omega

theorem arguments_accounted : Reads source room arguments :=
  fun here => .repeating here fun tight => argumentsUpTo_accounted (Nat.le_refl _) tight

theorem primary_accounted (here : Within source (room + 1) s) :
    Accounted source room Anything primary s :=
  primaryWith_accounted arguments_accounted here

theorem expression_accounted (here : Within source (room + 1) s) :
    Accounted source room Anything expression s :=
  expressionWith_accounted arguments_accounted here

theorem condition_accounted (here : Within source (room + 1) s) :
    Accounted source room Anything condition s := by
  refine (identifier_accounted here).bind fun _ _ _ there => ?_
  refine (sees_accounted .tagEnd there).bind fun _ _ _ there => ?_
  refine .ite (fun _ => .pure trivial there) fun _ => ?_
  refine (next_accounted (there.mono (Nat.le_succ _))).bind fun _ _ ⟨given, _⟩ there => ?_
  refine .ite (fun _ => ?_) fun _ => .fail given rfl
  refine (literal_accounted (there.mono (Nat.le_succ _))).bind fun _ _ _ there => ?_
  exact .pure trivial there

end Parse
end Stencil
