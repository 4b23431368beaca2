/-
# What readers make is derived

Whatever a reader makes, it makes of a row of tokens that the lexer reads, and the
grammar derives it from that row. A reader in front of others leaves them the lexer
where its own row ends, so the rows of readers in a row are put together. A look
ahead tells what the next token is and reads nothing.

Key definitions: `Parse.Derives`, `Parse.Closed`.
Key theorems: `Parse.expression_derives`, `Parse.condition_derives`,
`Parse.bodyUpTo_ended`, `parseTemplate_derives`.
-/
import Stencil.Proofs.Phrases

namespace Stencil
namespace Parse

open Lexer Terminal

variable {α β : Type} {s : Lexer} {c : Cursor} {b : β}

/-- What a reader makes, it makes of a row that leads to it. -/
def Derives (G : List Terminal → α → Prop) (p : Parse α) : Prop :=
  ∀ s a c, p (.ofLexer s) = .ok (a, c) → ∃ ts s', c = .ofLexer s' ∧ Row s ts s' ∧ G ts a

theorem bind_ok {G : List Terminal → α → Prop} {p : Parse α} {f : α → Parse β}
    (hp : ∀ a c, p (.ofLexer s) = .ok (a, c) → ∃ ts s', c = .ofLexer s' ∧ Row s ts s' ∧ G ts a)
    (h : (p >>= f) (.ofLexer s) = .ok (b, c)) :
    ∃ a ts s', G ts a ∧ Row s ts s' ∧ f a (.ofLexer s') = .ok (b, c) := by
  have run : (p >>= f) (.ofLexer s) = (p (.ofLexer s) >>= fun (a, c') => f a c') := rfl
  rw [run] at h
  cases first : p (.ofLexer s) with
  | error _ =>
    rw [first] at h
    cases h
  | ok made =>
    obtain ⟨a, c'⟩ := made
    rw [first] at h
    obtain ⟨ts, s', rfl, row, derived⟩ := hp a c' first
    exact ⟨a, ts, s', derived, row, h⟩

/-- A reader in front of another reads a row and leaves the other one where it ends. -/
theorem Derives.bind {G : List Terminal → α → Prop} {p : Parse α} {f : α → Parse β}
    (hp : Derives G p) (h : (p >>= f) (.ofLexer s) = .ok (b, c)) :
    ∃ a ts s', G ts a ∧ Row s ts s' ∧ f a (.ofLexer s') = .ok (b, c) :=
  bind_ok (hp s) h

/-- What makes something of nothing makes it where the lexer stands. -/
theorem pure_ok {a b : α} (h : (pure a : Parse α) (.ofLexer s) = .ok (b, c)) :
    b = a ∧ c = .ofLexer s := by
  cases h
  exact ⟨rfl, rfl⟩

theorem repeating_derives {G : List Terminal → α → Prop} {p : Nat → Parse α}
    (hp : ∀ turns, Derives G (p turns)) : Derives G (repeating p) :=
  fun s => hp _ s

/-! ### Single tokens -/

/-- A read gives a token, or the end. -/
theorem read_ok {f : Token → Parse β} (h : (read >>= f) (.ofLexer s) = .ok (b, c)) :
    ∃ t s', f t (.ofLexer s') = .ok (b, c) ∧
      (t.kind ≠ .eof ∧ Step s t.terminal s' ∨ t.kind = .eof ∧ Ends s s') := by
  have run : (read >>= f) (.ofLexer s) = (read (.ofLexer s) >>= fun (t, c') => f t c') := rfl
  rw [run, read_ofLexer] at h
  rcases next_cases s with ⟨a, s', step⟩ | ⟨s', line, found⟩ | ⟨failure, s', found⟩
  · obtain ⟨proper, line, found⟩ := step
    rw [found] at h
    exact ⟨_, s', h, .inl ⟨proper, proper, line, found⟩⟩
  · rw [found] at h
    exact ⟨_, s', h, .inr ⟨rfl, line, found⟩⟩
  · rw [found] at h
    cases h

theorem next_derives : Derives (fun ts t => ts = [t.terminal]) next := by
  intro s t c h
  obtain ⟨t', s', h, ⟨proper, step⟩ | ⟨ended, -⟩⟩ := read_ok h
  · rw [if_neg proper] at h
    obtain ⟨rfl, rfl⟩ := pure_ok h
    exact ⟨_, s', rfl, .single step, rfl⟩
  · rw [if_pos ended] at h
    cases h

theorem terminal_eq {t : Token} {kind : TokenKind} (h : t.kind = kind) :
    t.terminal = ⟨kind, t.value⟩ := by
  rw [← h]
  rfl

theorem expect_derives (kind : TokenKind) (want : Want) :
    Derives (fun ts t => ts = [⟨kind, t.value⟩]) (expect kind want) := by
  intro s t c h
  obtain ⟨t', ts, s', rfl, row, h⟩ := next_derives.bind h
  split at h
  · next same =>
    obtain ⟨rfl, rfl⟩ := pure_ok h
    exact ⟨_, s', rfl, row, by rw [terminal_eq same]⟩
  · cases h

/-- A token of a kind that is always written the same. -/
theorem expect_fixed {kind : TokenKind} (fixed : kind.fixed?.isSome = true) (want : Want) :
    Derives (fun ts _ => ts = [.fixed kind]) (expect kind want) := by
  intro s t c h
  obtain ⟨ts, s', rfl, row, rfl⟩ := expect_derives kind want s t c h
  cases row with
  | cons first rest =>
    cases rest
    exact ⟨_, _, rfl, .single first, by rw [first.fixed rfl fixed]⟩

theorem isOperator_terminal {t : Token} {symbol : String} (h : t.isOperator symbol = true) :
    t.terminal = operator symbol := by
  obtain ⟨kind, value, line⟩ := t
  simp only [Token.isOperator, Bool.and_eq_true, decide_eq_true_eq, beq_iff_eq] at h
  obtain ⟨rfl, rfl⟩ := h
  rfl

theorem expectOperator_derives (symbol : String) (want : Want) :
    Derives (fun ts _ => ts = [operator symbol]) (expectOperator symbol want) := by
  intro s t c h
  obtain ⟨t', ts, s', rfl, row, h⟩ := next_derives.bind h
  split at h
  · next same =>
    obtain ⟨rfl, rfl⟩ := pure_ok h
    exact ⟨_, s', rfl, row, by rw [isOperator_terminal same]⟩
  · cases h

theorem expectTagEnd_derives : Derives (fun ts _ => ts = [.fixed .tagEnd]) expectTagEnd := by
  intro s t c h
  obtain ⟨t', ts, s', rfl, row, h⟩ := (expect_fixed rfl .tagEnd).bind h
  obtain ⟨rfl, rfl⟩ := pure_ok h
  exact ⟨_, s', rfl, row, rfl⟩

theorem identifier_derives :
    Derives (fun ts name => ts = [Terminal.identifier name]) identifier := by
  intro s name c h
  obtain ⟨t, ts, s', rfl, row, h⟩ := (expect_derives .identifier .identifier).bind h
  obtain ⟨rfl, rfl⟩ := pure_ok h
  exact ⟨_, s', rfl, row, rfl⟩

theorem string_derives : Derives (fun ts text => ts = [Terminal.string text]) string := by
  intro s name c h
  obtain ⟨t, ts, s', rfl, row, h⟩ := (expect_derives .string .string).bind h
  obtain ⟨rfl, rfl⟩ := pure_ok h
  exact ⟨_, s', rfl, row, rfl⟩

/-! ### Looking ahead -/

/-- A look ahead sees the next token and leaves the lexer where it stands. -/
theorem peek_ok {f : Token → Parse β} (h : (peek >>= f) (.ofLexer s) = .ok (b, c)) :
    ∃ t, s.next.1 = .ok t ∧ f t (.ofLexer s) = .ok (b, c) := by
  have run : (peek >>= f) (.ofLexer s) = (peek (.ofLexer s) >>= fun (t, c') => f t c') := rfl
  rw [run, peek_ofLexer] at h
  cases found : s.next with
  | mk result s' =>
    rw [found] at h
    cases result with
    | error _ => cases h
    | ok t => exact ⟨t, rfl, h⟩

variable {p q : Parse β}

theorem sees_ok {kind : TokenKind}
    (h : (sees kind >>= fun yes => if yes = true then p else q) (.ofLexer s) = .ok (b, c)) :
    (∃ t, s.next.1 = .ok t ∧ t.kind = kind ∧ p (.ofLexer s) = .ok (b, c)) ∨
      q (.ofLexer s) = .ok (b, c) := by
  rw [sees, bind_assoc] at h
  obtain ⟨t, seen, h⟩ := peek_ok h
  rw [pure_bind] at h
  by_cases same : t.kind = kind
  · rw [if_pos (decide_eq_true same)] at h
    exact .inl ⟨t, seen, same, h⟩
  · rw [if_neg (by simpa using same)] at h
    exact .inr h

theorem seesOperator_ok {symbol : String}
    (h : (seesOperator symbol >>= fun yes => if yes = true then p else q) (.ofLexer s) =
      .ok (b, c)) :
    (∃ t, s.next.1 = .ok t ∧ t.terminal = operator symbol ∧ p (.ofLexer s) = .ok (b, c)) ∨
      q (.ofLexer s) = .ok (b, c) := by
  rw [seesOperator, bind_assoc] at h
  obtain ⟨t, seen, h⟩ := peek_ok h
  rw [pure_bind] at h
  by_cases same : t.isOperator symbol = true
  · rw [if_pos same] at h
    exact .inl ⟨t, seen, isOperator_terminal same, h⟩
  · rw [if_neg same] at h
    exact .inr h

theorem isMinus_ok {t : Token}
    (h : (isMinus t >>= fun yes => if yes = true then p else q) (.ofLexer s) = .ok (b, c)) :
    (t.terminal = operator "-" ∧ ∃ t', s.next.1 = .ok t' ∧ t'.kind = .number ∧
      p (.ofLexer s) = .ok (b, c)) ∨ q (.ofLexer s) = .ok (b, c) := by
  unfold isMinus at h
  by_cases minus : t.isOperator "-" = true
  · rw [if_pos minus] at h
    exact (sees_ok h).imp_left fun seen => ⟨isOperator_terminal minus, seen⟩
  · rw [if_neg minus] at h
    exact .inr h

/-- What has been seen is read next. -/
theorem next_of_seen {t : Token} {f : Token → Parse β} (seen : s.next.1 = .ok t)
    (h : (next >>= f) (.ofLexer s) = .ok (b, c)) :
    ∃ t' s', t'.terminal = t.terminal ∧ Row s [t.terminal] s' ∧ f t' (.ofLexer s') = .ok (b, c) := by
  obtain ⟨t', ts, s', rfl, row, h⟩ := next_derives.bind h
  cases row with
  | cons first rest =>
    cases rest
    obtain ⟨proper, line, read⟩ := first
    have same : t'.terminal = t.terminal := by
      rw [read, Except.ok.injEq] at seen
      rw [← seen]
      rfl
    exact ⟨t', s', same, same ▸ .single ⟨proper, line, read⟩, h⟩

/-- A numeral that has been seen is read next. -/
theorem number_of_seen {t : Token} {f : Token → Parse β} (seen : s.next.1 = .ok t)
    (digits : t.kind = .number) (h : (next >>= f) (.ofLexer s) = .ok (b, c)) :
    ∃ t' s', Row s [Terminal.number t'.value] s' ∧ f t' (.ofLexer s') = .ok (b, c) := by
  obtain ⟨t', s', same, row, h⟩ := next_of_seen seen h
  have value : t'.value = t.value := congrArg Terminal.value same
  rw [terminal_eq digits, ← value] at row
  exact ⟨t', s', row, h⟩

/-! ### Expressions -/

theorem numeral_derives (text : String) :
    Derives (fun ts v => ts = [] ∧ Number.value? text = some v) (numeral text) := by
  intro s v c h
  refine ⟨[], s, ?_⟩
  unfold numeral at h
  unfold Number.value?
  by_cases point : text.toList.contains '.' = true
  · rw [if_pos point] at h ⊢
    obtain ⟨rfl, rfl⟩ := pure_ok h
    exact ⟨rfl, .nil, rfl, rfl⟩
  · rw [if_neg point] at h ⊢
    cases read : Number.parse? text.toList with
    | none =>
      rw [read] at h
      cases h
    | some n =>
      rw [read] at h
      obtain ⟨rfl, rfl⟩ := pure_ok h
      exact ⟨rfl, .nil, rfl, rfl⟩

/-- The numeral behind a minus sign, when it has been seen. -/
theorem negated_ok {t : Token} (seen : s.next.1 = .ok t) (digits : t.kind = .number) (v : Value)
    (c : Cursor) (h : negated (.ofLexer s) = .ok (v, c)) :
    ∃ ts s', c = .ofLexer s' ∧ Row s ts s' ∧ Phrase.Literal (operator "-" :: ts) v := by
  obtain ⟨t', s', row, h⟩ := number_of_seen seen digits h
  obtain ⟨w, _, s'', ⟨rfl, value⟩, stays, h⟩ := (numeral_derives _).bind h
  obtain ⟨rfl, rfl⟩ := pure_ok h
  cases stays
  exact ⟨_, s', rfl, row, .negative value⟩

theorem filterSpec_derives : Derives Phrase.Filter filterSpec := by
  intro s f c h
  obtain ⟨name, _, s₁, rfl, row₁, h⟩ := identifier_derives.bind h
  rcases seesOperator_ok h with ⟨t, seen, colon, h⟩ | h
  · obtain ⟨_, s₂, -, row₂, h⟩ := next_of_seen seen h
    obtain ⟨t', _, s₃, rfl, row₃, h⟩ := next_derives.bind h
    rw [colon] at row₂
    have front := (row₁.append row₂).append row₃
    rcases isMinus_ok h with ⟨minus, n, seen', digits, h⟩ | h
    · obtain ⟨n', s₄, row₄, h⟩ := number_of_seen seen' digits h
      obtain ⟨rfl, rfl⟩ := pure_ok h
      rw [minus] at front
      exact ⟨_, s₄, rfl, front.append row₄, .negative⟩
    · split at h
      · next known =>
        obtain ⟨rfl, rfl⟩ := pure_ok h
        exact ⟨_, s₃, rfl, front, .word known⟩
      · cases h
  · obtain ⟨rfl, rfl⟩ := pure_ok h
    exact ⟨_, s₁, rfl, row₁, .bare⟩

theorem filter?_derives : Derives Phrase.Piped filter? := by
  intro s f c h
  rcases sees_ok h with ⟨t, seen, bar, h⟩ | h
  · obtain ⟨_, s₁, -, row₁, h⟩ := next_of_seen seen h
    obtain ⟨f, ts, s₂, filter, row₂, h⟩ := filterSpec_derives.bind h
    obtain ⟨rfl, rfl⟩ := pure_ok h
    cases row₁ with
    | cons first rest =>
      cases rest
      rw [first.fixed bar rfl] at first
      exact ⟨_, s₂, rfl, .cons first row₂, .some filter⟩
  · obtain ⟨rfl, rfl⟩ := pure_ok h
    exact ⟨[], s, rfl, .nil, .none⟩

/-- What a number, a text or a constant is read from. -/
theorem literal_derives : Derives Phrase.Literal literal := by
  intro s v c h
  obtain ⟨t, _, s₁, rfl, row, h⟩ := next_derives.bind h
  cases kind : t.kind with
  | string =>
    rw [kind] at h
    obtain ⟨rfl, rfl⟩ := pure_ok h
    rw [terminal_eq kind] at row
    exact ⟨_, s₁, rfl, row, .string⟩
  | number =>
    rw [kind] at h
    obtain ⟨_, s₂, rfl, stays, rfl, value⟩ := numeral_derives _ s₁ v c h
    cases stays
    rw [terminal_eq kind] at row
    exact ⟨_, s₁, rfl, row, .number value⟩
  | identifier =>
    rw [kind] at h
    cases constant : constant? t.value with
    | none =>
      dsimp only at h
      rw [constant] at h
      cases h
    | some w =>
      dsimp only at h
      rw [constant] at h
      obtain ⟨rfl, rfl⟩ := pure_ok h
      rw [terminal_eq kind] at row
      exact ⟨_, s₁, rfl, row, .constant constant⟩
  | _ =>
    rw [kind] at h
    rcases isMinus_ok h with ⟨minus, n, seen, digits, h⟩ | h
    · obtain ⟨ts, s₂, rfl, row', derived⟩ := negated_ok seen digits v c h
      rw [minus] at row
      exact ⟨_, s₂, rfl, row.append row', derived⟩
    · cases h

variable {arguments : Parse (List Expr)}

theorem primaryWith_derives (inner : Derives Phrase.Arguments arguments) :
    Derives Phrase.Primary (primaryWith arguments) := by
  intro s e c h
  obtain ⟨t, _, s₁, rfl, row, h⟩ := next_derives.bind h
  cases kind : t.kind with
  | string =>
    rw [kind] at h
    obtain ⟨rfl, rfl⟩ := pure_ok h
    rw [terminal_eq kind] at row
    exact ⟨_, s₁, rfl, row, .literal .string⟩
  | number =>
    rw [kind] at h
    obtain ⟨v, _, s₂, ⟨rfl, value⟩, stays, h⟩ := (numeral_derives _).bind h
    obtain ⟨rfl, rfl⟩ := pure_ok h
    cases stays
    rw [terminal_eq kind] at row
    exact ⟨_, s₁, rfl, row, .literal (.number value)⟩
  | identifier =>
    rw [kind] at h
    rw [terminal_eq kind] at row
    cases constant : constant? t.value with
    | some w =>
      dsimp only at h
      rw [constant] at h
      obtain ⟨rfl, rfl⟩ := pure_ok h
      exact ⟨_, s₁, rfl, row, .literal (.constant constant)⟩
    | none =>
      dsimp only at h
      rw [constant] at h
      rcases seesOperator_ok h with ⟨t', seen, parenthesis, h⟩ | h
      · obtain ⟨_, s₂, -, row₂, h⟩ := next_of_seen seen h
        obtain ⟨es, ts, s₃, derived, row₃, h⟩ := inner.bind h
        obtain ⟨rfl, rfl⟩ := pure_ok h
        rw [parenthesis] at row₂
        exact ⟨_, s₃, rfl, row.append (row₂.append row₃), .call constant derived⟩
      · obtain ⟨rfl, rfl⟩ := pure_ok h
        exact ⟨_, s₁, rfl, row, .path constant⟩
  | _ =>
    rw [kind] at h
    rcases isMinus_ok h with ⟨minus, n, seen, digits, h⟩ | h
    · obtain ⟨v, ts, s₂, derived, row', h⟩ := bind_ok (negated_ok seen digits) h
      obtain ⟨rfl, rfl⟩ := pure_ok h
      rw [minus] at row
      exact ⟨_, s₂, rfl, row.append row', .literal derived⟩
    · cases h

theorem expressionWith_derives (inner : Derives Phrase.Arguments arguments) :
    Derives Phrase.Expression (expressionWith arguments) := by
  intro s e c h
  obtain ⟨e', ts, s₁, primary, row, h⟩ := (primaryWith_derives inner).bind h
  obtain ⟨f, us, s₂, piped, row', h⟩ := filter?_derives.bind h
  cases piped with
  | none =>
    obtain ⟨rfl, rfl⟩ := pure_ok h
    cases row'
    exact ⟨ts, s₁, rfl, row, .bare primary⟩
  | some filter =>
    obtain ⟨rfl, rfl⟩ := pure_ok h
    exact ⟨_, s₂, rfl, row.append row', .filtered primary filter⟩

theorem separator_derives :
    Derives (fun ts more => ts = [operator (if more then "," else ")")]) separator := by
  intro s more c h
  obtain ⟨t, _, s₁, rfl, row, h⟩ := next_derives.bind h
  split at h
  · next parenthesis =>
    obtain ⟨rfl, rfl⟩ := pure_ok h
    exact ⟨_, s₁, rfl, row, by rw [isOperator_terminal parenthesis]; rfl⟩
  · split at h
    · next comma =>
      obtain ⟨rfl, rfl⟩ := pure_ok h
      exact ⟨_, s₁, rfl, row, by rw [isOperator_terminal comma]; rfl⟩
    · cases h

theorem someArguments_derives (inner : Derives Phrase.Arguments arguments) :
    ∀ turns, Derives Phrase.SomeArguments (someArguments arguments turns)
  | 0 => by
    intro s es c h
    cases h
  | turns + 1 => by
    intro s es c h
    obtain ⟨e, ts, s₁, expression, row, h⟩ := (expressionWith_derives inner).bind h
    obtain ⟨more, _, s₂, rfl, row', h⟩ := separator_derives.bind h
    cases more with
    | true =>
      obtain ⟨es, us, s₃, others, row'', h⟩ := (someArguments_derives inner turns).bind h
      obtain ⟨rfl, rfl⟩ := pure_ok h
      exact ⟨_, s₃, rfl, row.append (row'.append row''), .more expression others⟩
    | false =>
      obtain ⟨rfl, rfl⟩ := pure_ok h
      exact ⟨_, s₂, rfl, row.append row', .last expression⟩

theorem argumentsUpTo_derives : ∀ depth, Derives Phrase.Arguments (argumentsUpTo depth)
  | 0 => by
    intro s es c h
    cases h
  | depth + 1 => by
    intro s es c h
    rcases seesOperator_ok h with ⟨t, seen, parenthesis, h⟩ | h
    · obtain ⟨_, s₁, -, row, h⟩ := next_of_seen seen h
      obtain ⟨rfl, rfl⟩ := pure_ok h
      rw [parenthesis] at row
      exact ⟨_, s₁, rfl, row, .none⟩
    · obtain ⟨ts, s', rfl, row, derived⟩ :=
        repeating_derives (someArguments_derives (argumentsUpTo_derives depth)) s es c h
      exact ⟨ts, s', rfl, row, .some derived⟩

theorem arguments_derives : Derives Phrase.Arguments Parse.arguments :=
  repeating_derives argumentsUpTo_derives

theorem primary_derives : Derives Phrase.Primary primary :=
  primaryWith_derives arguments_derives

theorem expression_derives : Derives Phrase.Expression expression :=
  expressionWith_derives arguments_derives

theorem condition_derives : Derives Phrase.Condition condition := by
  intro s cond c h
  obtain ⟨path, _, s₁, rfl, row, h⟩ := identifier_derives.bind h
  rcases sees_ok h with ⟨t, seen, ended, h⟩ | h
  · obtain ⟨rfl, rfl⟩ := pure_ok h
    exact ⟨_, s₁, rfl, row, .bare⟩
  · obtain ⟨t, _, s₂, rfl, row', h⟩ := next_derives.bind h
    split at h
    · next known =>
      rw [Bool.and_eq_true, decide_eq_true_eq] at known
      obtain ⟨v, ts, s₃, literal, row'', h⟩ := literal_derives.bind h
      obtain ⟨rfl, rfl⟩ := pure_ok h
      rw [terminal_eq known.1] at row'
      exact ⟨_, s₃, rfl, row.append (row'.append row''), .test known.2 literal⟩
    · cases h

/-! ### Tags -/

theorem someParameters_derives : ∀ turns, Derives Phrase.SomeParameters (someParameters turns)
  | 0 => by
    intro s names c h
    cases h
  | turns + 1 => by
    intro s names c h
    obtain ⟨name, _, s₁, rfl, row, h⟩ := identifier_derives.bind h
    obtain ⟨more, _, s₂, rfl, row', h⟩ := separator_derives.bind h
    cases more with
    | true =>
      obtain ⟨names, us, s₃, others, row'', h⟩ := (someParameters_derives turns).bind h
      obtain ⟨rfl, rfl⟩ := pure_ok h
      exact ⟨_, s₃, rfl, row.append (row'.append row''), .more others⟩
    | false =>
      obtain ⟨rfl, rfl⟩ := pure_ok h
      exact ⟨_, s₂, rfl, row.append row', .last⟩

theorem parameters_derives : Derives Phrase.Parameters parameters := by
  intro s names c h
  rcases seesOperator_ok h with ⟨t, seen, parenthesis, h⟩ | h
  · obtain ⟨_, s₁, -, row, h⟩ := next_of_seen seen h
    obtain ⟨rfl, rfl⟩ := pure_ok h
    rw [parenthesis] at row
    exact ⟨_, s₁, rfl, row, .none⟩
  · obtain ⟨ts, s', rfl, row, derived⟩ :=
      repeating_derives someParameters_derives s names c h
    exact ⟨ts, s', rfl, row, .some derived⟩

theorem furtherNames_derives : ∀ turns, Derives Phrase.FurtherNames (furtherNames turns)
  | 0 => by
    intro s names c h
    cases h
  | turns + 1 => by
    intro s names c h
    rcases sees_ok h with ⟨t, seen, ended, h⟩ | h
    · obtain ⟨rfl, rfl⟩ := pure_ok h
      exact ⟨[], s, rfl, .nil, .none⟩
    · obtain ⟨_, _, s₁, rfl, row, h⟩ := (expectOperator_derives _ _).bind h
      obtain ⟨name, _, s₂, rfl, row', h⟩ := identifier_derives.bind h
      obtain ⟨names, us, s₃, others, row'', h⟩ := (furtherNames_derives turns).bind h
      obtain ⟨rfl, rfl⟩ := pure_ok h
      exact ⟨_, s₃, rfl, row.append (row'.append row''), .more others⟩

/-- What a tag reads behind its first word, with the end of the tag. -/
def Simple (k : Keyword) (ts : List Terminal) (node : Node) : Prop :=
  ∃ us, ts = us ++ [.fixed .tagEnd] ∧ Phrase.Simple k us node

theorem assignment_derives : Derives (Simple .setTag) assignment := by
  intro s node c h
  obtain ⟨name, _, s₁, rfl, row₁, h⟩ := identifier_derives.bind h
  obtain ⟨_, _, s₂, rfl, row₂, h⟩ := (expectOperator_derives _ _).bind h
  obtain ⟨e, ts, s₃, expression, row₃, h⟩ := expression_derives.bind h
  obtain ⟨_, _, s₄, rfl, row₄, h⟩ := expectTagEnd_derives.bind h
  obtain ⟨rfl, rfl⟩ := pure_ok h
  exact ⟨_, s₄, rfl, (row₁.append (row₂.append row₃)).append row₄, _, rfl, .assign expression⟩

theorem inheritance_derives : Derives (Simple .extendsTag) inheritance := by
  intro s node c h
  obtain ⟨name, _, s₁, rfl, row₁, h⟩ := string_derives.bind h
  obtain ⟨_, _, s₂, rfl, row₂, h⟩ := expectTagEnd_derives.bind h
  obtain ⟨rfl, rfl⟩ := pure_ok h
  exact ⟨_, s₂, rfl, row₁.append row₂, _, rfl, .inherit⟩

theorem inclusion_derives : Derives (Simple .includeTag) inclusion := by
  intro s node c h
  obtain ⟨name, _, s₁, rfl, row₁, h⟩ := string_derives.bind h
  obtain ⟨_, _, s₂, rfl, row₂, h⟩ := expectTagEnd_derives.bind h
  obtain ⟨rfl, rfl⟩ := pure_ok h
  exact ⟨_, s₂, rfl, row₁.append row₂, _, rfl, .inclusion⟩

theorem importation_derives : Derives (Simple .fromTag) importation := by
  intro s node c h
  obtain ⟨template, _, s₁, rfl, row₁, h⟩ := string_derives.bind h
  obtain ⟨_, _, s₂, rfl, row₂, h⟩ := (expect_fixed rfl _).bind h
  obtain ⟨name, _, s₃, rfl, row₃, h⟩ := identifier_derives.bind h
  obtain ⟨names, ts, s₄, further, row₄, h⟩ := (repeating_derives furtherNames_derives).bind h
  obtain ⟨_, _, s₅, rfl, row₅, h⟩ := expectTagEnd_derives.bind h
  obtain ⟨rfl, rfl⟩ := pure_ok h
  exact ⟨_, s₅, rfl, (row₁.append (row₂.append (row₃.append row₄))).append row₅, _, rfl,
    .imports further⟩

theorem parentMark_derives : Derives (Simple .parentTag) parentMark := by
  intro s node c h
  obtain ⟨_, _, s₁, rfl, row₁, h⟩ := expectTagEnd_derives.bind h
  obtain ⟨rfl, rfl⟩ := pure_ok h
  exact ⟨_, s₁, rfl, row₁, [], rfl, .parent⟩

/-! ### Bodies -/

/-- What is read of a tag that closes a body. The condition of `elif` is left for the choice. -/
def closingMark (k : Keyword) : List Terminal :=
  .fixed .tagStart :: word k :: if k = .elifTag then [] else [.fixed .tagEnd]

/-- A body up to a tag that may close it. -/
def Closed (closers : List TokenKind) (ts : List Terminal) (b : Body) : Prop :=
  ∃ us t k, ts = us ++ closingMark k ∧ Phrase.Items us b.1 ∧ b.2 = some t ∧ t.kind = .keyword k ∧
    .keyword k ∈ closers

/-- A tag from behind its first word, together with a body if it has one. -/
def Statement (k : Keyword) (ts : List Terminal) (node : Node) : Prop :=
  ∀ us nodes, Phrase.Items us nodes →
    Phrase.Items (.fixed .tagStart :: word k :: (ts ++ us)) (node :: nodes)

theorem Simple.statement {k : Keyword} {ts : List Terminal} {node : Node} (h : Simple k ts node) :
    Statement k ts node := by
  obtain ⟨inner, rfl, simple⟩ := h
  exact fun us nodes rest => .plain (.tag simple) rest

/-- A frame with its body. -/
theorem Frame.statement {k closer : Keyword} {ts bs : List Terminal} {make : List Node → Node}
    {b : Body} (frame : Phrase.Frame k closer ts make) (plain : closer ≠ .elifTag)
    (body : Closed [.keyword closer] bs b) :
    Statement k (ts ++ .fixed .tagEnd :: bs) (make b.1) := by
  obtain ⟨inner, t, k', rfl, items, -, -, member⟩ := body
  obtain rfl : k' = closer := by simpa using member
  intro us nodes rest
  have whole := Phrase.Items.frame frame items rest
  simpa [Phrase.tag, closingMark, plain] using whole

variable {body : List TokenKind → Parse Body}

/-- A reader of bodies makes what the grammar derives, when something closes them. -/
def ReadsBodies (body : List TokenKind → Parse Body) : Prop :=
  ∀ ks : List Keyword, ks ≠ [] → Derives (Closed (ks.map .keyword)) (body (ks.map .keyword))

theorem loopWith_derives (hb : ReadsBodies body) : Derives (Statement .forTag) (loopWith body) := by
  intro s node c h
  obtain ⟨item, _, s₁, rfl, row₁, h⟩ := identifier_derives.bind h
  obtain ⟨_, _, s₂, rfl, row₂, h⟩ := (expect_fixed rfl _).bind h
  obtain ⟨source, ts, s₃, primary, row₃, h⟩ := primary_derives.bind h
  obtain ⟨f, us, s₄, piped, row₄, h⟩ := filter?_derives.bind h
  obtain ⟨_, _, s₅, rfl, row₅, h⟩ := expectTagEnd_derives.bind h
  obtain ⟨b, bs, s₆, closed, row₆, h⟩ := (hb [.endforTag] nofun).bind h
  obtain ⟨rfl, rfl⟩ := pure_ok h
  refine ⟨_, s₆, rfl, ?_, Frame.statement (.loop primary piped) nofun closed⟩
  exact (row₁.append (row₂.append (row₃.append row₄))).append (row₅.append row₆)

theorem blockWith_derives (hb : ReadsBodies body) :
    Derives (Statement .blockTag) (blockWith body) := by
  intro s node c h
  obtain ⟨name, _, s₁, rfl, row₁, h⟩ := identifier_derives.bind h
  obtain ⟨_, _, s₂, rfl, row₂, h⟩ := expectTagEnd_derives.bind h
  obtain ⟨b, bs, s₃, closed, row₃, h⟩ := (hb [.endblockTag] nofun).bind h
  obtain ⟨rfl, rfl⟩ := pure_ok h
  exact ⟨_, s₃, rfl, row₁.append (row₂.append row₃), Frame.statement .block nofun closed⟩

theorem definitionWith_derives (hb : ReadsBodies body) :
    Derives (Statement .macroTag) (definitionWith body) := by
  intro s node c h
  obtain ⟨name, _, s₁, rfl, row₁, h⟩ := identifier_derives.bind h
  obtain ⟨_, _, s₂, rfl, row₂, h⟩ := (expectOperator_derives _ _).bind h
  obtain ⟨names, ts, s₃, parameters, row₃, h⟩ := parameters_derives.bind h
  obtain ⟨_, _, s₄, rfl, row₄, h⟩ := expectTagEnd_derives.bind h
  obtain ⟨b, bs, s₅, closed, row₅, h⟩ := (hb [.endmacroTag] nofun).bind h
  obtain ⟨rfl, rfl⟩ := pure_ok h
  exact ⟨_, s₅, rfl, (row₁.append (row₂.append row₃)).append (row₄.append row₅),
    Frame.statement (.definition parameters) nofun closed⟩

/-- A condition, the body behind it, and what is made of the tag that closes the body. -/
theorem branch_derives (hb : ReadsBodies body) {g : Option Token → Parse Alternative}
    {f : Condition → List Node → Alternative → α}
    (others : ∀ (t : Token) (k : Keyword), t.kind = .keyword k →
      k = .elifTag ∨ k = .elseTag ∨ k = .endifTag →
        Derives (fun ts rest => Phrase.Rest (closingMark k ++ ts) rest) (g (some t))) :
    Derives (fun ts a => ∃ us bs as c nodes rest, ts = us ++ .fixed .tagEnd :: (bs ++ as) ∧
      Phrase.Condition us c ∧ Phrase.Items bs nodes ∧ Phrase.Rest as rest ∧ a = f c nodes rest)
      (do
        let c ← condition
        expectTagEnd
        let (nodes, closer) ← body branchClosers
        let rest ← g closer
        pure (f c nodes rest)) := by
  intro s a c h
  obtain ⟨cond, us, s₁, condition, row₁, h⟩ := condition_derives.bind h
  obtain ⟨_, _, s₂, rfl, row₂, h⟩ := expectTagEnd_derives.bind h
  obtain ⟨b, bs, s₃, closed, row₃, h⟩ := (hb [.elifTag, .elseTag, .endifTag] nofun).bind h
  obtain ⟨inner, t, k, rfl, items, last, kind, member⟩ := closed
  have known : k = .elifTag ∨ k = .elseTag ∨ k = .endifTag := by simpa using member
  obtain ⟨nodes, closer⟩ := b
  dsimp only at last h
  subst last
  obtain ⟨rest, as, s₄, other, row₄, h⟩ := (others t k kind known).bind h
  obtain ⟨rfl, rfl⟩ := pure_ok h
  exact ⟨_, s₄, rfl, (row₁.append (row₂.append row₃)).append row₄, us, inner, closingMark k ++ as,
    cond, nodes, rest, by simp, condition, items, other, rfl⟩

/-- What follows a branch of a choice, from behind the tag that has closed the branch. -/
theorem alternativeWith_derives (hb : ReadsBodies body) : ∀ (turns : Nat) (t : Token) (k : Keyword),
    t.kind = .keyword k → k = .elifTag ∨ k = .elseTag ∨ k = .endifTag →
      Derives (fun ts alternative => Phrase.Rest (closingMark k ++ ts) alternative)
        (alternativeWith body turns (some t))
  | 0, _, _, _, _ => by
    intro s alternative c h
    cases h
  | turns + 1, t, k, kind, known => by
    intro s alternative c h
    unfold alternativeWith at h
    rw [Option.map_some, kind] at h
    rcases known with rfl | rfl | rfl
    · obtain ⟨ts, s₁, rfl, row, us, bs, as, cond, nodes, rest, rfl, condition, items, other, rfl⟩ :=
        branch_derives hb (alternativeWith_derives hb turns) s alternative c h
      refine ⟨_, s₁, rfl, row, ?_⟩
      have whole := Phrase.Rest.elif condition items other
      simpa [Phrase.tag, closingMark] using whole
    · obtain ⟨b, bs, s₁, closed, row₁, h⟩ := (hb [.endifTag] nofun).bind h
      obtain ⟨inner, t', k', rfl, items, last, kind', member⟩ := closed
      obtain rfl : k' = .endifTag := by simpa using member
      obtain ⟨rfl, rfl⟩ := pure_ok h
      exact ⟨_, s₁, rfl, row₁, .otherwise items⟩
    · obtain ⟨rfl, rfl⟩ := pure_ok h
      exact ⟨[], s, rfl, .nil, .none⟩

theorem choiceWith_derives (hb : ReadsBodies body) :
    Derives (Statement .ifTag) (choiceWith body) := by
  intro s node c h
  have others := fun (t : Token) k kind known =>
    repeating_derives fun turns => alternativeWith_derives hb turns t k kind known
  obtain ⟨ts, s₁, rfl, row, us, bs, as, cond, nodes, rest, rfl, condition, items, other, rfl⟩ :=
    branch_derives hb (g := fun t => repeating fun turns => alternativeWith body turns t) others
      s node c h
  refine ⟨_, s₁, rfl, row, fun us nodes rest => ?_⟩
  have whole := Phrase.Items.choice condition items other rest
  simpa [Phrase.tag, closingMark] using whole

/-- What is read in a tag behind its first word is a statement, and the word begins one. -/
theorem statementWith_derives (hb : ReadsBodies body) (first : Token) :
    Derives (fun ts node => ∃ k, first.kind = .keyword k ∧ Statement k ts node)
      (statementWith body first) := by
  have known : ∀ {k : Keyword} {p : Parse Node}, first.kind = .keyword k →
      Derives (Statement k) p →
        Derives (fun ts node => ∃ k, first.kind = .keyword k ∧ Statement k ts node) p :=
    fun {k _} kind hp s node c h => by
      obtain ⟨ts, s', rfl, row, statement⟩ := hp s node c h
      exact ⟨ts, s', rfl, row, k, kind, statement⟩
  have simple : ∀ {k : Keyword} {p : Parse Node}, Derives (Simple k) p → Derives (Statement k) p :=
    fun hp s node c h => by
      obtain ⟨ts, s', rfl, row, inner⟩ := hp s node c h
      exact ⟨ts, s', rfl, row, inner.statement⟩
  unfold statementWith
  split
  · next kind => exact known kind (loopWith_derives hb)
  · next kind => exact known kind (choiceWith_derives hb)
  · next kind => exact known kind (simple assignment_derives)
  · next kind => exact known kind (simple inheritance_derives)
  · next kind => exact known kind (blockWith_derives hb)
  · next kind => exact known kind (simple inclusion_derives)
  · next kind => exact known kind (definitionWith_derives hb)
  · next kind => exact known kind (simple importation_derives)
  · next kind => exact known kind (simple parentMark_derives)
  · exact fun s node c h => nomatch h

theorem output_derives :
    Derives (fun ts node => Phrase.Plain (.fixed .variableStart :: ts) node) output := by
  intro s node c h
  obtain ⟨e, ts, s₁, expression, row₁, h⟩ := expression_derives.bind h
  obtain ⟨_, _, s₂, rfl, row₂, h⟩ := (expect_fixed rfl _).bind h
  obtain ⟨rfl, rfl⟩ := pure_ok h
  exact ⟨_, s₂, rfl, row₁.append row₂, .output expression⟩

/-- A body ends at the end of the source when nothing else may close it, or at a tag that may. -/
def Ended (closers : List TokenKind) (s : Lexer) (b : Body) (c : Cursor) : Prop :=
  (closers = [] ∧ b.2 = none ∧ ∃ ts s' s'', Phrase.Items ts b.1 ∧ Row s ts s' ∧ Ends s' s'' ∧
    c = .ofLexer s'') ∨ ∃ ts s', c = .ofLexer s' ∧ Row s ts s' ∧ Closed closers ts b

/-- A body with one more node in front. -/
theorem Ended.cons {closers : List TokenKind} {s s' : Lexer} {ts : List Terminal} {node : Node}
    {b : Body} {c : Cursor} (row : Row s ts s')
    (first : ∀ us nodes, Phrase.Items us nodes → Phrase.Items (ts ++ us) (node :: nodes))
    (rest : Ended closers s' b c) : Ended closers s (node :: b.1, b.2) c := by
  rcases rest with ⟨none, closer, us, s₁, s₂, items, row', ended, rfl⟩ |
    ⟨us, s₁, rfl, row', inner, t, k, rfl, items, last, kind, member⟩
  · exact .inl ⟨none, closer, _, s₁, s₂, first us b.1 items, row.append row', ended, rfl⟩
  · refine .inr ⟨_, s₁, rfl, row.append row', ts ++ inner, t, k, ?_, first inner b.1 items, last,
      kind, member⟩
    rw [List.append_assoc]

/-- A reserved word is the terminal of its kind. -/
theorem word_of_kind {s s' : Lexer} {t : Token} {k : Keyword} (kind : t.kind = .keyword k)
    (row : Row s [t.terminal] s') : t.terminal = word k := by
  cases row with
  | cons first rest => exact first.fixed kind rfl

theorem closeBody_derives {t : Token} {k : Keyword} (kind : t.kind = .keyword k) :
    Derives (fun ts _ => ts = if k = .elifTag then [] else [.fixed .tagEnd]) (closeBody t) := by
  intro s u c h
  unfold closeBody at h
  by_cases goesOn : k = .elifTag
  · rw [if_pos (by rw [kind, goesOn])] at h
    obtain ⟨rfl, rfl⟩ := pure_ok h
    exact ⟨[], s, rfl, .nil, (if_pos goesOn).symm⟩
  · rw [if_neg (by rw [kind]; simpa using goesOn)] at h
    obtain ⟨ts, s', rfl, row, rfl⟩ := expectTagEnd_derives s u c h
    exact ⟨_, s', rfl, row, (if_neg goesOn).symm⟩

/-- A node in front of what a reader of a body makes. -/
theorem pair_ok {node : Node} {p : Parse Body} {b : Body} {c : Cursor}
    (h : (p >>= fun (nodes, closer) => pure (node :: nodes, closer)) (.ofLexer s) = .ok (b, c)) :
    ∃ rest : Body, p (.ofLexer s) = .ok (rest, c) ∧ b = (node :: rest.1, rest.2) := by
  have run : (p >>= fun (nodes, closer) => pure (node :: nodes, closer)) (.ofLexer s) =
    (p (.ofLexer s) >>= fun ((nodes, closer), c') => .ok ((node :: nodes, closer), c')) := rfl
  rw [run] at h
  cases first : p (.ofLexer s) with
  | error _ =>
    rw [first] at h
    cases h
  | ok made =>
    rw [first] at h
    cases h
    exact ⟨_, rfl, rfl⟩

/-- A tag ends the body, or it is a statement in front of the rest of the body. -/
theorem tagRest_ended {ks : List Keyword} {b : Body} {c : Cursor} {s₁ : Lexer}
    (hb : ReadsBodies body) (more : ∀ s b c, body (ks.map .keyword) (.ofLexer s) = .ok (b, c) →
      Ended (ks.map .keyword) s b c) (step : Step s (.fixed .tagStart) s₁)
    (h : (do
      let first ← next
      if (ks.map TokenKind.keyword).contains first.kind then
        closeBody first
        pure ([], some first)
      else
        let node ← statementWith body first
        let (nodes, closer) ← body (ks.map .keyword)
        pure (node :: nodes, closer) : Parse Body) (.ofLexer s₁) = .ok (b, c)) :
    Ended (ks.map .keyword) s b c := by
  obtain ⟨first, _, s₂, rfl, row, h⟩ := next_derives.bind h
  by_cases closes : (ks.map TokenKind.keyword).contains first.kind = true
  · rw [if_pos closes] at h
    obtain ⟨k, member, closer⟩ := List.mem_map.mp (List.contains_iff_mem.mp closes)
    rw [word_of_kind closer.symm row] at row
    obtain ⟨_, ts, s₃, rfl, row', h⟩ := (closeBody_derives closer.symm).bind h
    obtain ⟨rfl, rfl⟩ := pure_ok h
    exact .inr ⟨_, s₃, rfl, .cons step (row.append row'), [], first, k, rfl, .nil, rfl,
      closer.symm, List.mem_map_of_mem member⟩
  · rw [if_neg closes] at h
    obtain ⟨node, ts, s₃, ⟨k, word, statement⟩, row', h⟩ := (statementWith_derives hb first).bind h
    rw [word_of_kind word row] at row
    obtain ⟨rest, found, rfl⟩ := pair_ok h
    exact .cons (.cons step (row.append row')) statement (more s₃ _ _ found)

theorem bodyUpTo_ended : ∀ (turns : Nat) (ks : List Keyword) (s : Lexer) (b : Body) (c : Cursor),
    bodyUpTo turns (ks.map .keyword) (.ofLexer s) = .ok (b, c) →
      Ended (ks.map .keyword) s b c
  | 0, _, _, _, _, h => nomatch h
  | turns + 1, ks, s, b, c, h => by
    have hb : ReadsBodies (bodyUpTo turns) := fun ks some s b c h => by
      rcases bodyUpTo_ended turns ks s b c h with ⟨none, -⟩ | closed
      · exact absurd (List.map_eq_nil_iff.mp none) some
      · exact closed
    obtain ⟨t, s₁, h, ⟨proper, step⟩ | ⟨ended, ends⟩⟩ := read_ok h
    · cases kind : t.kind with
      | text =>
        rw [kind] at h
        rw [terminal_eq kind] at step
        obtain ⟨rest, more, h⟩ := pair_ok h
        rw [h]
        exact .cons (.single step) (fun us nodes items => .plain .text items)
          (bodyUpTo_ended turns ks s₁ _ _ more)
      | variableStart =>
        rw [kind] at h
        rw [step.fixed kind rfl] at step
        obtain ⟨node, ts, s₂, plain, row, h⟩ := output_derives.bind h
        obtain ⟨rest, more, rfl⟩ := pair_ok h
        exact .cons (.cons step row) (fun us nodes items => .plain plain items)
          (bodyUpTo_ended turns ks s₂ _ _ more)
      | tagStart =>
        rw [kind] at h
        rw [step.fixed kind rfl] at step
        exact tagRest_ended hb (bodyUpTo_ended turns ks) step h
      | eof => exact absurd kind proper
      | _ =>
        rw [kind] at h
        cases h
    · rw [ended] at h
      dsimp only at h
      by_cases top : (ks.map TokenKind.keyword).isEmpty = true
      · rw [if_pos top] at h
        obtain ⟨rfl, rfl⟩ := pure_ok h
        exact .inl ⟨List.isEmpty_iff.mp top, rfl, [], s, s₁, .nil, .nil, ends, rfl⟩
      · rw [if_neg top] at h
        cases h

end Parse

/-- **What a template is accepted for is derived.** The lexer reads a row of tokens up to the end of
the source, and the grammar derives the nodes from it. -/
theorem parseTemplate_derives {source : String} {nodes : List Node}
    (h : parseTemplate source = .ok nodes) :
    ∃ ts s s', Lexer.Row (.start source) ts s ∧ Lexer.Ends s s' ∧ Phrase.Items ts nodes := by
  unfold parseTemplate at h
  cases made : Parse.body [] (.ofLexer (.start source)) with
  | error halt =>
    rw [made] at h
    cases h
  | ok result =>
    obtain ⟨⟨made', closer⟩, c⟩ := result
    rw [made] at h
    cases h
    rcases Parse.bodyUpTo_ended _ [] _ _ _ made with ⟨-, -, ts, s, s', items, row, ends, -⟩ |
      ⟨ts, s, -, -, us, t, k, -, -, -, -, member⟩
    · exact ⟨ts, s, s', row, ends, items⟩
    · cases member

end Stencil
