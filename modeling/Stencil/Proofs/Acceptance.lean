/-
# What is derived is accepted

Where the lexer reads a row from which the grammar derives something, the reader
makes that very thing and stands where the row ends. At the end of an expression
the reader looks at the token behind it; in a template that is the end of the tag,
a comma or a parenthesis, and none of them goes on with the expression. Repetitions
have turns for as many tokens as there are ahead, and each turn reads one at least,
so they do not run out of turns.

Key definitions: `Parse.Makes`, `Terminal.Stops`.
Key theorems: `Parse.expressionWith_makes`, `Parse.bodyUpTo_items`, `parseTemplate_iff`.
-/
import Stencil.Proofs.Derivation

namespace Stencil

/-- A terminal that stands behind an expression. -/
def Terminal.Stops (a : Terminal) : Prop :=
  a = .fixed .variableEnd ∨ a = .fixed .tagEnd ∨ a = .operator ")" ∨ a = .operator ","

namespace Parse

open Lexer Terminal

variable {α β : Type} {s s' s'' : Lexer} {a : Terminal} {b : β}

/-- From where the lexer stands a reader makes something, and the lexer stands elsewhere then. -/
def Makes (p : Parse α) (s : Lexer) (a : α) (s' : Lexer) : Prop :=
  p (.ofLexer s) = .ok (a, .ofLexer s')

theorem Makes.pure (a : α) (s : Lexer) : Makes (pure a) s a s :=
  rfl

theorem Makes.bind {p : Parse α} {f : α → Parse β} {a : α} (h : Makes p s a s')
    (h' : Makes (f a) s' b s'') : Makes (p >>= f) s b s'' := by
  have run : (p >>= f) (.ofLexer s) = (p (.ofLexer s) >>= fun (a, c') => f a c') := rfl
  rw [Makes, run, h]
  exact h'

/-! ### Single tokens -/

/-- The next token is read, on whatever line it is. -/
theorem next_makes (step : Step s a s') : ∃ line, Makes next s ⟨a.kind, a.value, line⟩ s' := by
  obtain ⟨proper, line, found⟩ := step
  refine ⟨line, ?_⟩
  have run : next (.ofLexer s) = (read (.ofLexer s) >>= fun (t, c') =>
    (if t.kind = .eof then fail .unclosedTag t.line else Pure.pure t) c') := rfl
  rw [Makes, run, read_ofLexer, found]
  dsimp only [Bind.bind, Except.bind]
  rw [if_neg proper]
  rfl

theorem next_bind {f : Token → Parse β} (step : Step s a s')
    (h : ∀ line, Makes (f ⟨a.kind, a.value, line⟩) s' b s'') : Makes (next >>= f) s b s'' := by
  obtain ⟨line, made⟩ := next_makes step
  exact made.bind (h line)

theorem expect_bind {kind : TokenKind} {want : Want} {f : Token → Parse β} (step : Step s a s')
    (same : a.kind = kind) (h : ∀ line, Makes (f ⟨a.kind, a.value, line⟩) s' b s'') :
    Makes (expect kind want >>= f) s b s'' := by
  rw [expect, bind_assoc]
  refine next_bind step fun line => ?_
  rw [if_pos same]
  exact (Makes.pure _ s').bind (h line)

theorem identifier_makes {name : String} (step : Step s (Terminal.identifier name) s') :
    Makes identifier s name s' :=
  expect_bind step rfl fun _ => .pure _ _

theorem string_makes {text : String} (step : Step s (Terminal.string text) s') :
    Makes string s text s' :=
  expect_bind step rfl fun _ => .pure _ _

theorem expectTagEnd_makes (step : Step s (.fixed .tagEnd) s') : Makes expectTagEnd s () s' :=
  expect_bind step rfl fun _ => .pure _ _

theorem isOperator_iff {a : Terminal} {symbol : String} {line : Nat} :
    Token.isOperator ⟨a.kind, a.value, line⟩ symbol = true ↔ a = operator symbol := by
  obtain ⟨kind, value⟩ := a
  simp [Token.isOperator, operator]

theorem expectOperator_makes {symbol : String} {want : Want} (step : Step s (operator symbol) s') :
    Makes (expectOperator symbol want) s () s' := by
  refine next_bind step fun line => ?_
  rw [if_pos (isOperator_iff.mpr rfl)]
  exact .pure _ _

/-! ### Looking ahead -/

theorem peek_bind {f : Token → Parse β} (step : Step s a s')
    (h : ∀ line, Makes (f ⟨a.kind, a.value, line⟩) s b s'') : Makes (peek >>= f) s b s'' := by
  obtain ⟨proper, line, found⟩ := step
  have made : Makes peek s ⟨a.kind, a.value, line⟩ s := by
    rw [Makes, peek_ofLexer, found]
  exact made.bind (h line)

variable {p q : Parse β}

theorem sees_yes {kind : TokenKind} (step : Step s a s') (same : a.kind = kind)
    (h : Makes p s b s'') :
    Makes (sees kind >>= fun yes => if yes = true then p else q) s b s'' := by
  rw [sees, bind_assoc]
  refine peek_bind step fun line => ?_
  rw [pure_bind, if_pos (decide_eq_true same)]
  exact h

theorem sees_no {kind : TokenKind} (step : Step s a s') (other : a.kind ≠ kind)
    (h : Makes q s b s'') :
    Makes (sees kind >>= fun yes => if yes = true then p else q) s b s'' := by
  rw [sees, bind_assoc]
  refine peek_bind step fun line => ?_
  rw [pure_bind, if_neg (by simpa using other)]
  exact h

theorem seesOperator_yes {symbol : String} (step : Step s (operator symbol) s')
    (h : Makes p s b s'') :
    Makes (seesOperator symbol >>= fun yes => if yes = true then p else q) s b s'' := by
  rw [seesOperator, bind_assoc]
  refine peek_bind step fun line => ?_
  rw [pure_bind, if_pos (isOperator_iff.mpr rfl)]
  exact h

theorem seesOperator_no {symbol : String} (step : Step s a s') (other : a ≠ operator symbol)
    (h : Makes q s b s'') :
    Makes (seesOperator symbol >>= fun yes => if yes = true then p else q) s b s'' := by
  rw [seesOperator, bind_assoc]
  refine peek_bind step fun line => ?_
  rw [pure_bind, if_neg (mt isOperator_iff.mp other)]
  exact h

theorem isMinus_yes {line : Nat} {text : String} (step : Step s (Terminal.number text) s')
    (h : Makes p s b s'') :
    Makes (isMinus ⟨(operator "-").kind, (operator "-").value, line⟩ >>=
      fun yes => if yes = true then p else q) s b s'' := by
  rw [isMinus, if_pos (isOperator_iff.mpr rfl)]
  exact sees_yes step rfl h

theorem isMinus_no {line : Nat} (other : a ≠ operator "-") (h : Makes q s b s'') :
    Makes (isMinus ⟨a.kind, a.value, line⟩ >>= fun yes => if yes = true then p else q) s b s'' := by
  rw [isMinus, if_neg (mt isOperator_iff.mp other), pure_bind, if_neg Bool.false_ne_true]
  exact h

/-! ### Expressions -/

theorem numeral_makes {text : String} {v : Value} (value : Number.value? text = some v)
    (s : Lexer) : Makes (numeral text) s v s := by
  unfold Number.value? at value
  unfold Makes numeral
  by_cases point : text.toList.contains '.' = true
  · rw [if_pos point] at value ⊢
    cases value
    rfl
  · rw [if_neg point] at value ⊢
    obtain ⟨n, read, rfl⟩ := Option.map_eq_some_iff.mp value
    rw [read]
    rfl

theorem negated_makes {text : String} {v : Value} (value : Number.value? text = some v)
    (step : Step s (Terminal.number text) s') : Makes negated s (negate v) s' :=
  next_bind step fun _ => (numeral_makes value s').bind (.pure _ _)

theorem filterSpec_makes {ts : List Terminal} {f : FilterSpec} (h : Phrase.Filter ts f)
    (row : Row s ts s') (next : Step s' a s'') (other : a ≠ operator ":") :
    Makes filterSpec s f s' := by
  cases h with
  | bare =>
    cases row with
    | cons first rest =>
      cases rest
      exact (identifier_makes first).bind (seesOperator_no next other (.pure _ _))
  | @word name text kind known =>
    cases row with
    | cons first rest => cases rest with
      | cons second rest => cases rest with
        | cons third rest =>
          cases rest
          refine (identifier_makes first).bind (seesOperator_yes second ?_)
          refine next_bind second fun _ => next_bind third fun line => ?_
          refine isMinus_no (a := ⟨kind, text⟩) ?_ ?_
          · rintro ⟨⟩
            exact absurd known (by decide)
          · rw [if_pos known]
            exact .pure _ _
  | negative =>
    cases row with
    | cons first rest => cases rest with
      | cons second rest => cases rest with
        | cons third rest => cases rest with
          | cons fourth rest =>
            cases rest
            refine (identifier_makes first).bind (seesOperator_yes second ?_)
            refine next_bind second fun _ => next_bind third fun line => ?_
            exact isMinus_yes fourth (next_bind fourth fun _ => .pure _ _)

theorem literal_makes {ts : List Terminal} {v : Value} (h : Phrase.Literal ts v)
    (row : Row s ts s') : Makes literal s v s' := by
  cases row with
  | nil => cases h
  | cons first rest =>
    refine next_bind first fun line => ?_
    cases h with
    | string =>
      cases rest
      exact .pure _ _
    | number value =>
      cases rest
      exact numeral_makes value _
    | negative value =>
      cases rest with
      | cons second rest =>
        cases rest
        exact isMinus_yes second (negated_makes value second)
    | constant value =>
      cases rest
      dsimp only [Terminal.identifier]
      rw [value]
      exact .pure _ _

/-- A reader of arguments makes what the grammar derives of rows with fewer than so many tokens
ahead. -/
def ReadsArguments (room : Nat) (arguments : Parse (List Expr)) : Prop :=
  ∀ ts es s s', Phrase.Arguments ts es → Row s ts s' → s.size < room → Makes arguments s es s'

/-- No expression begins with a closing parenthesis. -/
theorem primary_first {ts : List Terminal} {e : Expr} (h : Phrase.Primary ts e) :
    ∃ a us, ts = a :: us ∧ a ≠ operator ")" := by
  cases h with
  | literal value =>
    cases value with
    | string => exact ⟨_, _, rfl, nofun⟩
    | number => exact ⟨_, _, rfl, nofun⟩
    | negative => exact ⟨_, _, rfl, by decide⟩
    | constant => exact ⟨_, _, rfl, nofun⟩
  | path => exact ⟨_, _, rfl, nofun⟩
  | call => exact ⟨_, _, rfl, nofun⟩

theorem expression_first {ts : List Terminal} {e : Expr} (h : Phrase.Expression ts e) :
    ∃ a us, ts = a :: us ∧ a ≠ operator ")" := by
  cases h with
  | bare primary => exact primary_first primary
  | filtered primary _ =>
    obtain ⟨a, us, rfl, other⟩ := primary_first primary
    exact ⟨a, _, rfl, other⟩

theorem someArguments_first {ts : List Terminal} {es : List Expr}
    (h : Phrase.SomeArguments ts es) : ∃ a us, ts = a :: us ∧ a ≠ operator ")" := by
  cases h with
  | last expression =>
    obtain ⟨a, us, rfl, other⟩ := expression_first expression
    exact ⟨a, _, rfl, other⟩
  | more expression _ =>
    obtain ⟨a, us, rfl, other⟩ := expression_first expression
    exact ⟨a, _, rfl, other⟩

variable {room : Nat} {arguments : Parse (List Expr)}

theorem primaryWith_makes (inner : ReadsArguments room arguments) {ts : List Terminal} {e : Expr}
    (h : Phrase.Primary ts e) (row : Row s ts s') (small : s.size ≤ room) (next : Step s' a s'')
    (other : a ≠ operator "(") : Makes (primaryWith arguments) s e s' := by
  cases row with
  | nil => exact absurd (primary_first h) nofun
  | cons first rest =>
    refine next_bind first fun line => ?_
    cases h with
    | literal value =>
      cases value with
      | string =>
        cases rest
        exact .pure _ _
      | number value =>
        cases rest
        exact (numeral_makes value _).bind (.pure _ _)
      | negative value =>
        cases rest with
        | cons second rest =>
          cases rest
          exact isMinus_yes second ((negated_makes value second).bind (.pure _ _))
      | constant value =>
        cases rest
        dsimp only [Terminal.identifier]
        rw [value]
        exact .pure _ _
    | path free =>
      cases rest
      dsimp only [Terminal.identifier]
      rw [free]
      exact seesOperator_no next other (.pure _ _)
    | call free derived =>
      cases rest with
      | cons second rest =>
        dsimp only [Terminal.identifier]
        rw [free]
        refine seesOperator_yes second (next_bind second fun _ => ?_)
        have shorter := size_of_step first
        have shorter' := size_of_step second
        exact (inner _ _ _ _ derived rest (by omega)).bind (.pure _ _)

theorem filter?_makes {ts : List Terminal} {f : Option FilterSpec} (h : Phrase.Piped ts f)
    (row : Row s ts s') (next : Step s' a s'') (stops : a.Stops) : Makes filter? s f s' := by
  cases h with
  | none =>
    cases row
    refine sees_no next ?_ (.pure _ _)
    rcases stops with rfl | rfl | rfl | rfl <;> decide
  | some filter =>
    cases row with
    | cons first rest =>
      refine sees_yes first rfl (next_bind first fun _ => ?_)
      refine (filterSpec_makes filter rest next ?_).bind (.pure _ _)
      rcases stops with rfl | rfl | rfl | rfl <;> decide

/-- **An expression that is derived is made.** -/
theorem expressionWith_makes (inner : ReadsArguments room arguments) {ts : List Terminal}
    {e : Expr} (h : Phrase.Expression ts e) (row : Row s ts s') (small : s.size ≤ room)
    (next : Step s' a s'') (stops : a.Stops) : Makes (expressionWith arguments) s e s' := by
  cases h with
  | bare primary =>
    have other : a ≠ operator "(" := by
      rcases stops with rfl | rfl | rfl | rfl <;> decide
    exact (primaryWith_makes inner primary row small next other).bind
      ((filter?_makes .none .nil next stops).bind (.pure _ _))
  | filtered primary filter =>
    obtain ⟨s₁, front, back⟩ := row.split
    have bar : ∃ s₂, Step s₁ (.fixed .pipe) s₂ := by
      cases back with
      | cons first _ => exact ⟨_, first⟩
    obtain ⟨s₂, step⟩ := bar
    exact (primaryWith_makes inner primary front small step (by decide)).bind
      ((filter?_makes (.some filter) back next stops).bind (.pure _ _))

theorem separator_comma (step : Step s (operator ",") s') : Makes separator s true s' := by
  refine next_bind step fun line => ?_
  rw [if_neg (mt isOperator_iff.mp (by decide)), if_pos (isOperator_iff.mpr rfl)]
  exact .pure _ _

theorem separator_parenthesis (step : Step s (operator ")") s') : Makes separator s false s' := by
  refine next_bind step fun line => ?_
  rw [if_pos (isOperator_iff.mpr rfl)]
  exact .pure _ _

theorem someArguments_makes (inner : ReadsArguments room arguments) :
    ∀ (turns : Nat) {s s' : Lexer} {ts : List Terminal} {es : List Expr},
      Phrase.SomeArguments ts es → Row s ts s' → s.size ≤ room → s.size < turns →
        Makes (someArguments arguments turns) s es s'
  | 0, _, _, _, _, _, _, _, few => absurd few (Nat.not_lt_zero _)
  | turns + 1, s, s', _, _, h, row, small, enough => by
    cases h with
    | last expression =>
      obtain ⟨s₁, front, back⟩ := row.split
      cases back with
      | cons step rest =>
        cases rest
        exact (expressionWith_makes inner expression front small step (.inr (.inr (.inl rfl)))).bind
          ((separator_parenthesis step).bind (.pure _ _))
    | more expression others =>
      obtain ⟨s₁, front, back⟩ := row.split
      cases back with
      | cons step rest =>
        have shorter := front.size
        have shorter' := size_of_step step
        have tail := someArguments_makes inner turns others rest (by omega) (by omega)
        exact (expressionWith_makes inner expression front small step (.inr (.inr (.inr rfl)))).bind
          ((separator_comma step).bind (tail.bind (.pure _ _)))

theorem argumentsUpTo_reads : ∀ depth, ReadsArguments depth (argumentsUpTo depth)
  | 0 => fun _ _ _ _ _ _ few => absurd few (Nat.not_lt_zero _)
  | depth + 1 => by
    intro ts es s s' h row small
    cases h with
    | none =>
      cases row with
      | cons first rest =>
        cases rest
        exact seesOperator_yes first (next_bind first fun _ => .pure _ _)
    | some others =>
      obtain ⟨a, us, rfl, other⟩ := someArguments_first others
      have made := someArguments_makes (argumentsUpTo_reads depth) (s.size + 1) others row
        (by omega) (by omega)
      cases row with
      | cons first rest => exact seesOperator_no first other made

theorem arguments_reads (room : Nat) : ReadsArguments room Parse.arguments :=
  fun _ _ s _ h row _ => argumentsUpTo_reads (s.size + 1) _ _ _ _ h row (Nat.lt_succ_self _)

theorem primary_makes {ts : List Terminal} {e : Expr} (h : Phrase.Primary ts e)
    (row : Row s ts s') (next : Step s' a s'') (other : a ≠ operator "(") : Makes primary s e s' :=
  primaryWith_makes (arguments_reads s.size) h row (Nat.le_refl _) next other

theorem expression_makes {ts : List Terminal} {e : Expr} (h : Phrase.Expression ts e)
    (row : Row s ts s') (next : Step s' a s'') (stops : a.Stops) : Makes expression s e s' :=
  expressionWith_makes (arguments_reads s.size) h row (Nat.le_refl _) next stops

theorem condition_makes {ts : List Terminal} {cond : Condition} (h : Phrase.Condition ts cond)
    (row : Row s ts s') (next : Step s' (.fixed .tagEnd) s'') : Makes condition s cond s' := by
  cases h with
  | bare =>
    cases row with
    | cons first rest =>
      cases rest
      exact (identifier_makes first).bind (sees_yes next rfl (.pure _ _))
  | test known literal =>
    cases row with
    | cons first rest => cases rest with
      | cons second rest =>
        refine (identifier_makes first).bind (sees_no second nofun ?_)
        refine next_bind second fun line => ?_
        rw [if_pos (by simpa [operator] using known)]
        exact (literal_makes literal rest).bind (.pure _ _)

/-! ### Tags -/

theorem someParameters_makes : ∀ (turns : Nat) {s s' : Lexer} {ts : List Terminal}
    {names : List String}, Phrase.SomeParameters ts names → Row s ts s' → s.size < turns →
      Makes (someParameters turns) s names s'
  | 0, _, _, _, _, _, _, few => absurd few (Nat.not_lt_zero _)
  | turns + 1, s, s', _, _, h, row, enough => by
    cases h with
    | last =>
      cases row with
      | cons first rest => cases rest with
        | cons second rest =>
          cases rest
          exact (identifier_makes first).bind ((separator_parenthesis second).bind
            (.pure _ _))
    | more others =>
      cases row with
      | cons first rest => cases rest with
        | cons second rest =>
          have shorter := size_of_step first
          have shorter' := size_of_step second
          have tail := someParameters_makes turns others rest (by omega)
          exact (identifier_makes first).bind ((separator_comma second).bind
            (tail.bind (.pure _ _)))

theorem parameters_makes {ts : List Terminal} {names : List String}
    (h : Phrase.Parameters ts names) (row : Row s ts s') : Makes parameters s names s' := by
  cases h with
  | none =>
    cases row with
    | cons first rest =>
      cases rest
      exact seesOperator_yes first (next_bind first fun _ => .pure _ _)
  | some others =>
    have made := someParameters_makes (s.size + 1) others row (Nat.lt_succ_self _)
    cases others with
    | last =>
      cases row with
      | cons first rest => exact seesOperator_no first nofun made
    | more _ =>
      cases row with
      | cons first rest => exact seesOperator_no first nofun made

theorem furtherNames_makes : ∀ (turns : Nat) {s s' : Lexer} {ts : List Terminal}
    {names : List String}, Phrase.FurtherNames ts names → Row s ts s' →
      Step s' (.fixed .tagEnd) s'' → s.size < turns → Makes (furtherNames turns) s names s'
  | 0, _, _, _, _, _, _, _, few => absurd few (Nat.not_lt_zero _)
  | turns + 1, s, s', _, _, h, row, next, enough => by
    cases h with
    | none =>
      cases row
      exact sees_yes next rfl (.pure _ _)
    | more others =>
      cases row with
      | cons first rest => cases rest with
        | cons second rest =>
          have shorter := size_of_step first
          have shorter' := size_of_step second
          have tail := furtherNames_makes turns others rest next (by omega)
          exact sees_no first nofun ((expectOperator_makes first).bind
            ((identifier_makes second).bind (tail.bind (.pure _ _))))

/-- The end of a tag behind a row. -/
theorem tagEnd_of_row {ts : List Terminal} (row : Row s (ts ++ [.fixed .tagEnd]) s') :
    ∃ s₁, Row s ts s₁ ∧ Step s₁ (.fixed .tagEnd) s' := by
  obtain ⟨s₁, front, back⟩ := row.split
  cases back with
  | cons first rest =>
    cases rest
    exact ⟨s₁, front, first⟩

/-- The row of a tag: its first word, and what stands behind it. -/
theorem tag_of_row {k : Keyword} {ts : List Terminal} (row : Row s (Phrase.tag k ts) s') :
    ∃ s₁ s₂, Step s (.fixed .tagStart) s₁ ∧ Step s₁ (word k) s₂ ∧
      Row s₂ (ts ++ [.fixed .tagEnd]) s' ∧ s.size = s₂.size + 2 ∧ s'.size < s₂.size := by
  cases row with
  | cons first rest => cases rest with
    | cons second rest =>
      have := size_of_step first
      have := size_of_step second
      have behind := rest.size
      rw [List.length_append, List.length_singleton] at behind
      exact ⟨_, _, first, second, rest, by omega, by omega⟩

/-- **A tag that has no body is made** of what stands behind its first word. -/
theorem simple_makes {body : List TokenKind → Parse Body} {k : Keyword} {ts : List Terminal}
    {node : Node} {first : Token} (h : Phrase.Simple k ts node) (kind : first.kind = .keyword k)
    (row : Row s (ts ++ [.fixed .tagEnd]) s') : Makes (statementWith body first) s node s' := by
  obtain ⟨s₁, row, ends⟩ := tagEnd_of_row row
  have closed : ∀ {node : Node}, Makes (do expectTagEnd; Pure.pure node) s₁ node s' :=
    (expectTagEnd_makes ends).bind (.pure _ _)
  unfold statementWith
  rw [kind]
  cases h with
  | assign expression =>
    cases row with
    | cons step₁ rest => cases rest with
      | cons step₂ rest =>
        exact (identifier_makes step₁).bind ((expectOperator_makes step₂).bind
          ((expression_makes expression rest ends (.inr (.inl rfl))).bind closed))
  | inherit =>
    cases row with
    | cons step₁ rest =>
      cases rest
      exact (string_makes step₁).bind closed
  | inclusion =>
    cases row with
    | cons step₁ rest =>
      cases rest
      exact (string_makes step₁).bind closed
  | imports further =>
    cases row with
    | cons step₁ rest => cases rest with
      | cons step₂ rest => cases rest with
        | @cons _ s₂ _ _ _ step₃ rest =>
          have names : Makes (repeating furtherNames) s₂ _ s₁ :=
            furtherNames_makes (s₂.size + 1) further rest ends (Nat.lt_succ_self _)
          exact (string_makes step₁).bind (expect_bind step₂ rfl fun _ =>
            (identifier_makes step₃).bind (names.bind closed))
  | parent =>
    cases row
    exact closed

/-- **A tag that frames a body is made** of what stands behind its first word and of the body. -/
theorem frame_makes {body : List TokenKind → Parse Body} {k closer : Keyword} {ts : List Terminal}
    {make : List Node → Node} {first : Token} {b : Body} (h : Phrase.Frame k closer ts make)
    (kind : first.kind = .keyword k) (row : Row s (ts ++ [.fixed .tagEnd]) s')
    (inner : Makes (body [.keyword closer]) s' b s'') :
    Makes (statementWith body first) s (make b.1) s'' := by
  obtain ⟨s₁, row, ends⟩ := tagEnd_of_row row
  unfold statementWith
  rw [kind]
  cases h with
  | @loop item ts us e f source filter =>
    cases row with
    | cons step₁ rest => cases rest with
      | @cons _ s₃ _ _ _ step₂ rest =>
        obtain ⟨s₂, front, back⟩ := rest.split
        have piped := filter?_makes filter back ends (.inr (.inl rfl))
        have primary : Makes primary s₃ e s₂ := by
          cases filter with
          | none =>
            cases back
            exact primary_makes source front ends (by decide)
          | some filter =>
            cases back with
            | cons bar _ => exact primary_makes source front bar (by decide)
        exact (identifier_makes step₁).bind (expect_bind step₂ rfl fun _ =>
          primary.bind (piped.bind ((expectTagEnd_makes ends).bind (inner.bind (.pure _ _)))))
  | block =>
    cases row with
    | cons step₁ rest =>
      cases rest
      exact (identifier_makes step₁).bind ((expectTagEnd_makes ends).bind
        (inner.bind (.pure _ _)))
  | definition parameters =>
    cases row with
    | cons step₁ rest => cases rest with
      | cons step₂ rest =>
        exact (identifier_makes step₁).bind ((expectOperator_makes step₂).bind
          ((parameters_makes parameters rest).bind ((expectTagEnd_makes ends).bind
            (inner.bind (.pure _ _)))))

/-! ### Bodies -/

/-- No tag that closes a body begins with a word that begins another tag. -/
def Distinct (closers : List TokenKind) : Prop :=
  ∀ k : Keyword, k.opens = true → .keyword k ∉ closers

theorem distinct_map {ks : List Keyword} (h : ks.all (fun k => !k.opens) = true) :
    Distinct (ks.map .keyword) := by
  intro k opens member
  obtain ⟨k', member', same⟩ := List.mem_map.mp member
  cases same
  have closes := List.all_eq_true.mp h k member'
  rw [opens] at closes
  cases closes

/-- Nodes in front of what a reader of a body makes. -/
def prepended (nodes : List Node) : Except Halt (Body × Cursor) → Except Halt (Body × Cursor)
  | .ok ((rest, closer), c) => .ok ((nodes ++ rest, closer), c)
  | .error halt => .error halt

theorem prepended_nil (r : Except Halt (Body × Cursor)) : prepended [] r = r := by
  cases r <;> rfl

theorem prepended_prepended (nodes others : List Node) (r : Except Halt (Body × Cursor)) :
    prepended nodes (prepended others r) = prepended (nodes ++ others) r := by
  cases r with
  | error halt => rfl
  | ok made => simp [prepended]

/-- A node in front of what a reader of a body makes. -/
theorem pair_eq (node : Node) (p : Parse Body) (s : Lexer) :
    (p >>= fun (nodes, closer) => Pure.pure (node :: nodes, closer)) (.ofLexer s) =
      prepended [node] (p (.ofLexer s)) := by
  have run : (p >>= fun (nodes, closer) => Pure.pure (node :: nodes, closer)) (.ofLexer s) =
    (p (.ofLexer s) >>= fun ((nodes, closer), c') => .ok ((node :: nodes, closer), c')) := rfl
  rw [run]
  cases p (.ofLexer s) <;> rfl

/-- What follows a reader that makes something is left to what comes behind it. -/
theorem bind_eq {p : Parse α} {f : α → Parse β} {a : α} (h : Makes p s a s') :
    (p >>= f) (.ofLexer s) = f a (.ofLexer s') := by
  have run : (p >>= f) (.ofLexer s) = (p (.ofLexer s) >>= fun (a, c') => f a c') := rfl
  rw [run, h]
  rfl

/-- A step is what the first read of a body makes. -/
theorem read_makes (step : Step s a s') : ∃ line, Makes read s ⟨a.kind, a.value, line⟩ s' := by
  obtain ⟨-, line, found⟩ := step
  refine ⟨line, ?_⟩
  rw [Makes, read_ofLexer, found]

variable {closers : List TokenKind} {turns : Nat}

theorem bodyUpTo_text {text : String} (step : Step s ⟨.text, text⟩ s') :
    bodyUpTo (turns + 1) closers (.ofLexer s) =
      prepended [.text text] (bodyUpTo turns closers (.ofLexer s')) := by
  obtain ⟨line, made⟩ := read_makes step
  rw [bodyUpTo, bind_eq made]
  exact pair_eq (.text text) _ s'

theorem bodyUpTo_output {ts : List Terminal} {e : Expr} (h : Phrase.Expression ts e)
    (row : Row s (.fixed .variableStart :: (ts ++ [.fixed .variableEnd])) s') :
    bodyUpTo (turns + 1) closers (.ofLexer s) =
      prepended [.output e] (bodyUpTo turns closers (.ofLexer s')) := by
  cases row with
  | cons step rest =>
    obtain ⟨line, made⟩ := read_makes step
    obtain ⟨s₁, front, back⟩ := rest.split
    cases back with
    | cons last rest =>
      cases rest
      have whole : Makes output _ (.output e) s' :=
        (expression_makes h front last (.inl rfl)).bind (expect_bind last rfl fun _ => .pure _ _)
      rw [bodyUpTo, bind_eq made]
      exact (bind_eq whole).trans (pair_eq (.output e) _ s')

/-- A tag that begins with a word of its own is a statement. -/
theorem bodyUpTo_statement {s₁ s₂ : Lexer} {k : Keyword} {node : Node} (opens : k.opens = true)
    (distinct : Distinct closers) (first : Step s (.fixed .tagStart) s₁)
    (second : Step s₁ (word k) s₂)
    (h : ∀ t : Token, t.kind = .keyword k →
      Makes (statementWith (bodyUpTo turns) t) s₂ node s') :
    bodyUpTo (turns + 1) closers (.ofLexer s) =
      prepended [node] (bodyUpTo turns closers (.ofLexer s')) := by
  obtain ⟨line, made⟩ := read_makes first
  obtain ⟨line', made'⟩ := next_makes second
  rw [bodyUpTo, bind_eq made]
  refine (bind_eq made').trans ?_
  have other : ¬closers.contains (word k).kind = true := fun closes =>
    distinct k opens (List.contains_iff_mem.mp closes)
  rw [if_neg other]
  exact (bind_eq (h _ rfl)).trans (pair_eq node _ s')

theorem closeBody_makes {k : Keyword} {t : Token} (kind : t.kind = .keyword k)
    (row : Row s (if k = .elifTag then [] else [.fixed .tagEnd]) s') :
    Makes (closeBody t) s () s' := by
  unfold closeBody
  by_cases goesOn : k = .elifTag
  · rw [if_pos goesOn] at row
    rw [if_pos (by rw [kind, goesOn])]
    cases row
    exact .pure _ _
  · rw [if_neg goesOn] at row
    rw [if_neg (by rw [kind]; simpa using goesOn)]
    cases row with
    | cons last rest =>
      cases rest
      exact expectTagEnd_makes last

/-- A tag that may close a body closes it. -/
theorem bodyUpTo_closing {s₁ s₂ : Lexer} {k : Keyword} (member : .keyword k ∈ closers)
    (first : Step s (.fixed .tagStart) s₁) (second : Step s₁ (word k) s₂)
    (row : Row s₂ (if k = .elifTag then [] else [.fixed .tagEnd]) s') :
    ∃ t : Token, t.kind = .keyword k ∧
      ∀ turns, Makes (bodyUpTo (turns + 1) closers) s ([], some t) s' := by
  obtain ⟨line, made⟩ := read_makes first
  obtain ⟨line', made'⟩ := next_makes second
  refine ⟨⟨(word k).kind, (word k).value, line'⟩, rfl, fun turns => ?_⟩
  rw [Makes, bodyUpTo, bind_eq made]
  refine (bind_eq made').trans ?_
  have closes : closers.contains (word k).kind = true := List.contains_iff_mem.mpr member
  rw [if_pos closes]
  exact bind_eq (closeBody_makes rfl row)

/-- Text, output or a tag without a body is a node. -/
theorem bodyUpTo_plain {ts : List Terminal} {node : Node} (h : Phrase.Plain ts node)
    (distinct : Distinct closers) (row : Row s ts s') :
    bodyUpTo (turns + 1) closers (.ofLexer s) =
      prepended [node] (bodyUpTo turns closers (.ofLexer s')) := by
  cases h with
  | text =>
    cases row with
    | cons step rest =>
      cases rest
      exact bodyUpTo_text step
  | output expression => exact bodyUpTo_output expression row
  | tag simple =>
    obtain ⟨s₁, s₂, first, second, rest, -⟩ := tag_of_row row
    exact bodyUpTo_statement simple.opens distinct first second
      fun t kind => simple_makes simple kind rest

/-- Nodes in front of a body that ends. -/
theorem Makes.prepended {n : Nat} {nodes rest : List Node} {closer : Option Token} {s₁ : Lexer}
    (made : bodyUpTo turns closers (.ofLexer s) =
      prepended nodes (bodyUpTo n closers (.ofLexer s₁)))
    (ends : Makes (bodyUpTo n closers) s₁ (rest, closer) s') :
    Makes (bodyUpTo turns closers) s (nodes ++ rest, closer) s' := by
  rw [Makes, made, ends]
  rfl

/-- What the reader of bodies makes with some turns of a row of nodes, whatever comes behind it. -/
def ReadsItems (turns : Nat) : Prop :=
  ∀ (closers : List TokenKind) (ts : List Terminal) (nodes : List Node) (s s' : Lexer),
    Distinct closers → Phrase.Items ts nodes → Row s ts s' → s.size < turns →
      ∃ n, s'.size ≤ n ∧ bodyUpTo turns closers (.ofLexer s) =
        prepended nodes (bodyUpTo (n + 1) closers (.ofLexer s'))

/-- A body of nodes and the tag that closes it. -/
theorem ReadsItems.closed (ih : ReadsItems turns) {k : Keyword} (plain : k ≠ .elifTag)
    (opens : k.opens = false) {bs : List Terminal} {nodes : List Node} {s₁ : Lexer}
    (items : Phrase.Items bs nodes) (row : Row s bs s₁) (last : Row s₁ (Phrase.tag k []) s')
    (small : s.size < turns) :
    ∃ t : Token, Makes (bodyUpTo turns [.keyword k]) s (nodes, some t) s' := by
  have distinct : Distinct [.keyword k] := @distinct_map [k] (by simp [opens])
  obtain ⟨n, -, made⟩ := ih _ bs nodes s s₁ distinct items row small
  obtain ⟨s₂, s₃, first, second, rest, -⟩ := tag_of_row last
  obtain ⟨t, -, ends⟩ := bodyUpTo_closing (List.mem_singleton.mpr rfl) first second
    (by rw [if_neg plain]; exact rest)
  have whole := Makes.prepended made (ends n)
  rw [List.append_nil] at whole
  exact ⟨t, whole⟩

theorem distinct_branchClosers : Distinct branchClosers :=
  @distinct_map [.elifTag, .elseTag, .endifTag] rfl

/-- A branch of a choice up to what closes it. -/
theorem ReadsItems.branch (ih : ReadsItems turns) {bs : List Terminal} {nodes : List Node}
    {s₁ : Lexer} {t : Token} (items : Phrase.Items bs nodes) (row : Row s bs s₁)
    (ends : ∀ n, Makes (bodyUpTo (n + 1) branchClosers) s₁ ([], some t) s')
    (small : s.size < turns) : Makes (bodyUpTo turns branchClosers) s (nodes, some t) s' := by
  obtain ⟨n, -, made⟩ := ih _ bs nodes s s₁ distinct_branchClosers items row small
  have whole := Makes.prepended made (ends n)
  rwa [List.append_nil] at whole

theorem alternativeWith_elif {body : List TokenKind → Parse Body} {n : Nat} {t : Token}
    (kind : t.kind = .keyword .elifTag) : alternativeWith body (n + 1) (some t) = (do
      let c ← condition
      expectTagEnd
      let (nodes, closer) ← body branchClosers
      let rest ← alternativeWith body n closer
      Pure.pure (.choice c nodes rest)) := by
  rw [alternativeWith, Option.map_some, kind]

theorem alternativeWith_else {body : List TokenKind → Parse Body} {n : Nat} {t : Token}
    (kind : t.kind = .keyword .elseTag) : alternativeWith body (n + 1) (some t) = (do
      let (nodes, _) ← body [.keyword .endifTag]
      Pure.pure (.otherwise nodes)) := by
  rw [alternativeWith, Option.map_some, kind]

theorem alternativeWith_endif {body : List TokenKind → Parse Body} {n : Nat} {t : Token}
    (kind : t.kind = .keyword .endifTag) :
    alternativeWith body (n + 1) (some t) = Pure.pure (.otherwise []) := by
  rw [alternativeWith, Option.map_some, kind]

/-- The tag that closes a branch of a choice, and what follows it. -/
theorem rest_makes (ih : ReadsItems turns) {ts : List Terminal} {rest : Alternative}
    {s s' : Lexer} (h : Phrase.Rest ts rest) (row : Row s ts s') (small : s.size ≤ turns) :
    ∃ t s₁, s₁.size < s.size ∧ (∀ n, Makes (bodyUpTo (n + 1) branchClosers) s ([], some t) s₁) ∧
      ∀ n, s₁.size < n → Makes (alternativeWith (bodyUpTo turns) n (some t)) s₁ rest s' := by
  match h with
  | .elif condition items other =>
    obtain ⟨s₁, front, back⟩ := row.split
    obtain ⟨s₂, inner, back⟩ := back.split
    obtain ⟨s₃, s₄, first, second, tail, ahead, behind⟩ := tag_of_row front
    obtain ⟨s₅, tail, ends⟩ := tagEnd_of_row tail
    have := inner.size
    have closes : TokenKind.keyword .elifTag ∈ branchClosers := by decide
    obtain ⟨t, kind, closing⟩ := bodyUpTo_closing closes first second .nil
    obtain ⟨t', s₆, less, closing', others⟩ := rest_makes ih other back (by omega)
    have branch := ih.branch items inner closing' (by omega)
    refine ⟨t, s₄, by omega, closing, fun n enough => ?_⟩
    cases n with
    | zero => exact absurd enough (Nat.not_lt_zero _)
    | succ n =>
      rw [alternativeWith_elif kind]
      exact (condition_makes condition tail ends).bind ((expectTagEnd_makes ends).bind
        (branch.bind ((others n (by omega)).bind (.pure _ _))))
  | .otherwise items =>
    obtain ⟨s₁, front, back⟩ := row.split
    obtain ⟨s₂, inner, back⟩ := back.split
    obtain ⟨s₃, s₄, first, second, tail, ahead, behind⟩ := tag_of_row front
    have closes : TokenKind.keyword .elseTag ∈ branchClosers := by decide
    obtain ⟨t, kind, closing⟩ := bodyUpTo_closing closes first second tail
    obtain ⟨t', branch⟩ := ih.closed (k := .endifTag) (by decide) rfl items inner back (by omega)
    refine ⟨t, s₁, by omega, closing, fun n enough => ?_⟩
    cases n with
    | zero => exact absurd enough (Nat.not_lt_zero _)
    | succ n =>
      rw [alternativeWith_else kind]
      exact branch.bind (.pure _ _)
  | .none =>
    obtain ⟨s₃, s₄, first, second, tail, ahead, behind⟩ := tag_of_row row
    have closes : TokenKind.keyword .endifTag ∈ branchClosers := by decide
    obtain ⟨t, kind, closing⟩ := bodyUpTo_closing closes first second tail
    refine ⟨t, s', by omega, closing, fun n enough => ?_⟩
    cases n with
    | zero => exact absurd enough (Nat.not_lt_zero _)
    | succ n =>
      rw [alternativeWith_endif kind]
      exact .pure _ _

/-- A choice is made of its first branch and the others. -/
theorem choice_makes (ih : ReadsItems turns) {ts bs as : List Terminal} {c : Condition}
    {body : List Node} {otherwise : Alternative} {s₁ s₂ : Lexer} {t : Token}
    (kind : t.kind = .keyword .ifTag) (first : Phrase.Condition ts c)
    (inner : Phrase.Items bs body) (other : Phrase.Rest as otherwise)
    (front : Row s (ts ++ [.fixed .tagEnd]) s₁) (middle : Row s₁ bs s₂) (last : Row s₂ as s')
    (small : s₁.size < turns) :
    Makes (statementWith (bodyUpTo turns) t) s (.choice c body otherwise) s' := by
  obtain ⟨s₃, tail, ends⟩ := tagEnd_of_row front
  have := middle.size
  obtain ⟨t', s₄, -, closing, others⟩ := rest_makes ih other last (by omega)
  have branch := ih.branch inner middle closing small
  unfold statementWith
  rw [kind]
  exact (condition_makes first tail ends).bind ((expectTagEnd_makes ends).bind
    (branch.bind (Makes.bind (others (s₄.size + 1) (Nat.lt_succ_self _)) (.pure _ _))))

/-- **A row of nodes is made**, and what comes behind it is left with turns enough. -/
theorem bodyUpTo_items : ∀ turns, ReadsItems turns
  | 0 => fun _ _ _ _ _ _ _ _ few => absurd few (Nat.not_lt_zero _)
  | turns + 1 => by
    intro closers ts nodes s s' distinct h row enough
    have ih := bodyUpTo_items turns
    -- What is left behind a node is read with one turn less.
    have goOn : ∀ {node : Node} {us : List Terminal} {others : List Node} {s₁ : Lexer},
        bodyUpTo (turns + 1) closers (.ofLexer s) =
          prepended [node] (bodyUpTo turns closers (.ofLexer s₁)) →
        Phrase.Items us others → Row s₁ us s' → s₁.size < turns →
        ∃ n, s'.size ≤ n ∧ bodyUpTo (turns + 1) closers (.ofLexer s) =
          prepended (node :: others) (bodyUpTo (n + 1) closers (.ofLexer s')) := by
      intro node us others s₁ made items row small
      obtain ⟨n, less, made'⟩ := ih closers us others s₁ s' distinct items row small
      refine ⟨n, less, ?_⟩
      rw [made, made', prepended_prepended]
      rfl
    cases h with
    | nil =>
      cases row
      exact ⟨turns, Nat.le_of_lt_succ enough, (prepended_nil _).symm⟩
    | plain first rest =>
      obtain ⟨s₁, front, back⟩ := row.split
      have := front.size
      have := first.length_pos
      exact goOn (bodyUpTo_plain first distinct front) rest back (by omega)
    | frame first inner rest =>
      obtain ⟨s₁, front, row⟩ := row.split
      obtain ⟨s₂, middle, row⟩ := row.split
      obtain ⟨s₃, last, back⟩ := row.split
      obtain ⟨s₄, s₅, step, step', tail, ahead, behind⟩ := tag_of_row front
      have := middle.size
      have := last.size
      obtain ⟨t, body⟩ := ih.closed first.closes.2 first.closes.1 inner middle last (by omega)
      have made := bodyUpTo_statement first.opens distinct step step'
        fun t kind => frame_makes first kind tail body
      exact goOn made rest back (by omega)
    | choice first inner other rest =>
      obtain ⟨s₁, front, row⟩ := row.split
      obtain ⟨s₂, middle, row⟩ := row.split
      obtain ⟨s₃, last, back⟩ := row.split
      obtain ⟨s₄, s₅, step, step', tail, ahead, behind⟩ := tag_of_row front
      have := middle.size
      have := last.size
      have made := bodyUpTo_statement rfl distinct step step'
        fun t kind => choice_makes ih kind first inner other tail middle last (by omega)
      exact goOn made rest back (by omega)

/-- At the end of the source a body ends that nothing else may close. -/
theorem bodyUpTo_end (ends : Ends s s') : Makes (bodyUpTo (turns + 1) []) s ([], none) s' := by
  obtain ⟨line, found⟩ := ends
  have made : Makes read s ⟨.eof, "", line⟩ s' := by
    rw [Makes, read_ofLexer, found]
  rw [Makes, bodyUpTo, bind_eq made]
  rfl

end Parse

/-- **What is derived is accepted.** -/
theorem parseTemplate_of_items {source : String} {ts : List Terminal} {nodes : List Node}
    {s s' : Lexer} (row : Lexer.Row (.start source) ts s) (ends : Lexer.Ends s s')
    (items : Phrase.Items ts nodes) : parseTemplate source = .ok nodes := by
  obtain ⟨n, -, made⟩ := Parse.bodyUpTo_items _ [] ts nodes _ s nofun items row (Nat.lt_succ_self _)
  have whole := Parse.Makes.prepended made (Parse.bodyUpTo_end ends)
  rw [List.append_nil] at whole
  have made' : Parse.body [] (.ofLexer (.start source)) = .ok ((nodes, none), .ofLexer s') := whole
  rw [parseTemplate, made']

/-- **The reader of templates accepts what the grammar derives**, and nothing else. -/
theorem parseTemplate_iff {source : String} {nodes : List Node} :
    parseTemplate source = .ok nodes ↔
      ∃ ts s s', Lexer.Row (.start source) ts s ∧ Lexer.Ends s s' ∧ Phrase.Items ts nodes :=
  ⟨parseTemplate_derives, fun ⟨_, _, _, row, ends, items⟩ =>
    parseTemplate_of_items row ends items⟩

end Stencil
