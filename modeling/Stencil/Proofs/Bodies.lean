/-
# Bodies in lockstep

Of two lexers in lockstep the readers of tags and of bodies make the same, or fail
over the same token. A body may be given more turns in one run than in the other, as
long as there are turns for the tokens ahead; so a body is the same wherever in a
source it stands.

Key definitions: `Parse.SameBody`, `Parse.BodiesAgree`.
Key theorems: `Parse.statementWith_agrees`, `Parse.bodyUpTo_agrees`,
`Parse.body_agrees`.
-/
import Stencil.Proofs.Lockstep

namespace Stencil
namespace Parse

open Lexer

variable {place n room : Nat} {sim : Lexer → Lexer → Prop} {α β : Type} {post : α → Mode}
  {post' : β → Mode} {R : α → α → Lexer → Prop} {R' : β → β → Lexer → Prop} {s s' : Lexer}
  {p p' : List TokenKind → Parse Body}

section

variable (lock : Lockstep place n sim)

include lock

/-! ### Tags -/

/-- The mode in which a body leaves the lexer: the condition behind `elif` is still ahead. -/
def modeAfterBody (b : Body) : Mode :=
  if b.2.map Token.kind = some (.keyword .elifTag) then .expression else .text

omit lock in
theorem modeAfterBody_elif {nodes : List Node} {t : Token} (kind : t.kind = .keyword .elifTag) :
    modeAfterBody (nodes, some t) = .expression :=
  if_pos (congrArg some kind)

omit lock in
theorem modeAfterBody_other {nodes : List Node} {closer : Option Token}
    (other : ∀ t ∈ closer, t.kind ≠ .keyword .elifTag) : modeAfterBody (nodes, closer) = .text := by
  refine if_neg fun elif => ?_
  obtain ⟨t, rfl, kind⟩ := Option.map_eq_some_iff.mp elif
  exact other t rfl kind

/-- What is made of a body is the same, but for the line of the token that closed it, which is one
of some closers. -/
def SameBody (closers : List TokenKind) (b b' : Body) (_ : Lexer) : Prop :=
  b'.1 = b.1 ∧ b'.2.map Token.kind = b.2.map Token.kind ∧ ∀ t ∈ b.2, t.kind ∈ closers

/-- What two readers of bodies agree on, with as many tokens ahead at most. -/
def BodiesAgree (place n : Nat) (sim : Lexer → Lexer → Prop) (room : Nat)
    (p p' : List TokenKind → Parse Body) : Prop :=
  ∀ closers {s s' : Lexer}, (∀ k ∈ closers, k.modeAfter = .expression) → At sim room .text s s' →
    Agrees place n sim room modeAfterBody (SameBody closers) (p closers (.ofLexer s))
      (p' closers (.ofLexer s'))

omit lock in
theorem BodiesAgree.less {room' : Nat} (h : ∀ k ≤ room, BodiesAgree place n sim k p p')
    (le : room' ≤ room) : ∀ k ≤ room', BodiesAgree place n sim k p p' :=
  fun k small => h k (Nat.le_trans small le)

omit lock in
/-- A body that only one tag closes ends in text, unless the tag is `elif`. -/
theorem BodiesAgree.bind_single {closer : TokenKind} (bodies : BodiesAgree place n sim room p p')
    (proper : closer.modeAfter = .expression) (other : closer ≠ .keyword .elifTag)
    {f : List Node → Parse β} (at' : At sim room .text s s')
    (h : ∀ nodes {s s' : Lexer}, At sim room .text s s' →
      Agrees place n sim room post' R' (f nodes (.ofLexer s)) (f nodes (.ofLexer s'))) :
    Agrees place n sim room post' R'
      ((do let (nodes, _) ← p [closer]; f nodes : Parse β) (.ofLexer s))
      ((do let (nodes, _) ← p' [closer]; f nodes : Parse β) (.ofLexer s')) := by
  refine (bodies [closer] (List.forall_mem_singleton.mpr proper) at').bind ?_
  rintro ⟨nodes, t⟩ ⟨nodes', t'⟩ s₁ s₁' ⟨same, -, known⟩ there
  cases same
  have text : modeAfterBody (nodes, t) = .text := modeAfterBody_other fun u hu elif =>
    other ((List.mem_singleton.mp (known u hu)).symm.trans elif)
  rw [text] at there
  exact h nodes there

theorem loopWith_agrees (bodies : BodiesAgree place n sim room p p')
    (at' : At sim (room + 1) .expression s s') :
    Agrees place n sim room (fun _ => .text) Same (loopWith p (.ofLexer s))
      (loopWith p' (.ofLexer s')) := by
  refine (identifier_agrees lock at').bind fun item _ s₁ s₁' same there => ?_
  cases same
  refine (expect_agrees lock _ _ (there.mono (Nat.le_succ _))).bind fun _ _ s₂ s₂' _ there => ?_
  refine (primary_agrees lock (there.mono (Nat.le_succ _))).bind fun e _ s₃ s₃' same there => ?_
  cases same
  refine (filter?_agrees lock there).bind fun f _ s₄ s₄' same there => ?_
  cases same
  refine (expectTagEnd_agrees lock (there.mono (Nat.le_succ _))).bind fun _ _ s₅ s₅' _ there => ?_
  exact bodies.bind_single rfl (by decide) there fun nodes _ _ there => .pure rfl there

/-- A condition, the body behind it, and what follows the body. -/
theorem branch_agrees {g g' : Option Token → Parse Alternative}
    {f : Condition → List Node → Alternative → β} (bodies : BodiesAgree place n sim room p p')
    (others : ∀ {t t' : Option Token} {s s' : Lexer}, t'.map Token.kind = t.map Token.kind →
      (∀ u ∈ t, u.kind ∈ branchClosers) → At sim room (modeAfterBody ([], t)) s s' →
        Agrees place n sim room (fun _ => .text) Same (g t (.ofLexer s)) (g' t' (.ofLexer s')))
    (at' : At sim (room + 1) .expression s s') :
    Agrees place n sim room (fun _ => .text) Same
      ((do
        let c ← condition
        expectTagEnd
        let (nodes, closer) ← p branchClosers
        let rest ← g closer
        pure (f c nodes rest) : Parse β) (.ofLexer s))
      ((do
        let c ← condition
        expectTagEnd
        let (nodes, closer) ← p' branchClosers
        let rest ← g' closer
        pure (f c nodes rest) : Parse β) (.ofLexer s')) := by
  refine (condition_agrees lock at').bind fun c _ s₁ s₁' same there => ?_
  cases same
  refine (expectTagEnd_agrees lock (there.mono (Nat.le_succ _))).bind fun _ _ s₂ s₂' _ there => ?_
  refine Agrees.bind (bodies branchClosers (by decide) there) ?_
  rintro ⟨nodes, t⟩ ⟨nodes', t'⟩ s₃ s₃' ⟨same, same', known⟩ there
  cases same
  refine (others same' known there).bind fun a _ s₄ s₄' same there => ?_
  cases same
  exact .pure rfl there

/-- With a turn for each token that is left, in both runs. -/
theorem alternativeWith_agrees {turns turns' : Nat} {closer closer' : Option Token}
    (bodies : ∀ k ≤ room, BodiesAgree place n sim k p p') (enough : room ≤ turns)
    (enough' : room ≤ turns') (same : closer'.map Token.kind = closer.map Token.kind)
    (known : ∀ t ∈ closer, t.kind ∈ branchClosers)
    (at' : At sim room (modeAfterBody ([], closer)) s s') :
    Agrees place n sim room (fun _ => .text) Same (alternativeWith p turns closer (.ofLexer s))
      (alternativeWith p' turns' closer' (.ofLexer s')) := by
  induction turns generalizing turns' room closer closer' s s' with
  | zero =>
    obtain ⟨less, rfl⟩ := at'.pos
    omega
  | succ turns ih =>
    obtain ⟨less, rfl⟩ := at'.pos
    cases turns' with
    | zero => omega
    | succ turns' =>
      unfold alternativeWith
      rw [same]
      cases closer with
      | none => exact .pure rfl at'
      | some t =>
        have one := known t rfl
        simp only [branchClosers, List.mem_cons, List.not_mem_nil, or_false] at one
        have text : t.kind ≠ .keyword .elifTag → modeAfterBody ([], some t) = .text := fun other =>
          modeAfterBody_other fun _ found => Option.some.inj found ▸ other
        rw [Option.map_some]
        rcases one with kind | kind | kind
        · rw [modeAfterBody_elif kind] at at'
          rw [kind]
          refine Agrees.mono (?_ : Agrees place n sim less _ _ _ _) (Nat.le_succ less)
          exact branch_agrees lock (bodies less (Nat.le_succ _)) (ih
            (BodiesAgree.less bodies (Nat.le_succ _)) (Nat.le_of_succ_le_succ enough)
            (Nat.le_of_succ_le_succ enough')) at'
        · rw [text (by rw [kind]; decide)] at at'
          rw [kind]
          exact (bodies _ (Nat.le_refl _)).bind_single rfl (by decide) at' fun nodes _ _ there =>
            .pure rfl there
        · rw [text (by rw [kind]; decide)] at at'
          rw [kind]
          exact .pure rfl at'

theorem choiceWith_agrees (bodies : ∀ k ≤ room, BodiesAgree place n sim k p p')
    (at' : At sim (room + 1) .expression s s') :
    Agrees place n sim room (fun _ => .text) Same (choiceWith p (.ofLexer s))
      (choiceWith p' (.ofLexer s')) := by
  have others : ∀ {t t' : Option Token} {s s' : Lexer}, t'.map Token.kind = t.map Token.kind →
      (∀ u ∈ t, u.kind ∈ branchClosers) → At sim room (modeAfterBody ([], t)) s s' →
        Agrees place n sim room (fun _ => .text) Same
          (repeating (fun turns => alternativeWith p turns t) (.ofLexer s))
          (repeating (fun turns => alternativeWith p' turns t') (.ofLexer s')) :=
    fun same known there => repeating_agrees there fun tight =>
      alternativeWith_agrees lock (BodiesAgree.less bodies there.size) (Nat.le_refl _)
        (Nat.le_refl _) same known tight
  exact branch_agrees lock (bodies room (Nat.le_refl _)) others at'

theorem assignment_agrees (at' : At sim (room + 1) .expression s s') :
    Agrees place n sim room (fun _ => .text) Same (assignment (.ofLexer s))
      (assignment (.ofLexer s')) := by
  refine (identifier_agrees lock at').bind fun name _ s₁ s₁' same there => ?_
  cases same
  refine (expectOperator_agrees lock _ _ (there.mono (Nat.le_succ _))).bind
    fun _ _ s₂ s₂' _ there => ?_
  refine (expression_agrees lock (there.mono (Nat.le_succ _))).bind fun e _ s₃ s₃' same there => ?_
  cases same
  refine (expectTagEnd_agrees lock (there.mono (Nat.le_succ _))).bind fun _ _ s₄ s₄' _ there => ?_
  exact .pure rfl there

/-- A tag that holds one string. -/
theorem stringTag_agrees (node : String → Node) (at' : At sim (room + 1) .expression s s') :
    Agrees place n sim room (fun _ => .text) Same
      ((do let name ← string; expectTagEnd; pure (node name) : Parse Node) (.ofLexer s))
      ((do let name ← string; expectTagEnd; pure (node name) : Parse Node) (.ofLexer s')) := by
  refine (string_agrees lock at').bind fun name _ s₁ s₁' same there => ?_
  cases same
  refine (expectTagEnd_agrees lock (there.mono (Nat.le_succ _))).bind fun _ _ s₂ s₂' _ there => ?_
  exact .pure rfl there

theorem blockWith_agrees (bodies : BodiesAgree place n sim room p p')
    (at' : At sim (room + 1) .expression s s') :
    Agrees place n sim room (fun _ => .text) Same (blockWith p (.ofLexer s))
      (blockWith p' (.ofLexer s')) := by
  refine (identifier_agrees lock at').bind fun name _ s₁ s₁' same there => ?_
  cases same
  refine (expectTagEnd_agrees lock (there.mono (Nat.le_succ _))).bind fun _ _ s₂ s₂' _ there => ?_
  exact bodies.bind_single rfl (by decide) there fun nodes _ _ there => .pure rfl there

/-- With a turn for each token that is left, in both runs. -/
theorem someParameters_agrees {turns turns' : Nat} (enough : room < turns)
    (enough' : room < turns') (at' : At sim (room + 1) .expression s s') :
    Agrees place n sim room (fun _ => .expression) Same (someParameters turns (.ofLexer s))
      (someParameters turns' (.ofLexer s')) := by
  induction turns generalizing turns' room s s' with
  | zero => omega
  | succ turns ih =>
    cases turns' with
    | zero => omega
    | succ turns' =>
      refine (identifier_agrees lock at').bind fun name _ s₁ s₁' same there => ?_
      cases same
      obtain ⟨less, rfl⟩ := there.pos
      refine ((separator_agrees lock there).mono (Nat.le_succ _)).bind
        fun more _ s₂ s₂' same there => ?_
      cases same
      refine .ite (fun _ => ?_) fun _ => .pure rfl there
      have behind := ih (Nat.lt_of_succ_lt_succ enough) (Nat.lt_of_succ_lt_succ enough') there
      refine (behind.mono (Nat.le_succ _)).bind fun names _ s₃ s₃' same there => ?_
      cases same
      exact .pure rfl there

theorem parameters_agrees (at' : At sim room .expression s s') :
    Agrees place n sim room (fun _ => .expression) Same (parameters (.ofLexer s))
      (parameters (.ofLexer s')) := by
  refine Agrees.bind (seesOperator_agrees lock ")" at') ?_
  rintro yes _ s₁ s₁' ⟨rfl, rfl, looked⟩ there
  refine .ite (fun few => ?_) fun _ => repeating_agrees there fun tight =>
    (someParameters_agrees lock (Nat.lt_succ_self _) (Nat.lt_succ_self _) tight).mono
      (Nat.le_succ _)
  exact (next_of_looked lock (looked few) there).bind fun _ _ s₂ s₂' _ there => .pure rfl there

theorem definitionWith_agrees (bodies : BodiesAgree place n sim room p p')
    (at' : At sim (room + 1) .expression s s') :
    Agrees place n sim room (fun _ => .text) Same (definitionWith p (.ofLexer s))
      (definitionWith p' (.ofLexer s')) := by
  refine (identifier_agrees lock at').bind fun name _ s₁ s₁' same there => ?_
  cases same
  refine (expectOperator_agrees lock _ _ (there.mono (Nat.le_succ _))).bind
    fun _ _ s₂ s₂' _ there => ?_
  refine (parameters_agrees lock there).bind fun names _ s₃ s₃' same there => ?_
  cases same
  refine (expectTagEnd_agrees lock (there.mono (Nat.le_succ _))).bind fun _ _ s₄ s₄' _ there => ?_
  exact bodies.bind_single rfl (by decide) there fun nodes _ _ there => .pure rfl there

/-- With a turn for each token that is left, in both runs. -/
theorem furtherNames_agrees {turns turns' : Nat} (enough : room ≤ turns)
    (enough' : room ≤ turns') (at' : At sim room .expression s s') :
    Agrees place n sim room (fun _ => .expression) Same (furtherNames turns (.ofLexer s))
      (furtherNames turns' (.ofLexer s')) := by
  induction turns generalizing turns' room s s' with
  | zero =>
    obtain ⟨less, rfl⟩ := at'.pos
    omega
  | succ turns ih =>
    obtain ⟨less, rfl⟩ := at'.pos
    cases turns' with
    | zero => omega
    | succ turns' =>
      refine Agrees.bind (sees_agrees lock .tagEnd at') ?_
      rintro yes _ s₁ s₁' ⟨rfl, rfl, -⟩ there
      refine .ite (fun _ => .pure rfl there) fun _ => ?_
      refine Agrees.mono (?_ : Agrees place n sim less _ _ _ _) (Nat.le_succ less)
      refine (expectOperator_agrees lock _ _ there).bind fun _ _ s₂ s₂' _ there => ?_
      refine (identifier_agrees lock (there.mono (Nat.le_succ _))).bind
        fun name _ s₃ s₃' same there => ?_
      cases same
      refine (ih (Nat.le_of_succ_le_succ enough) (Nat.le_of_succ_le_succ enough') there).bind
        fun names _ s₄ s₄' same there => ?_
      cases same
      exact .pure rfl there

theorem importation_agrees (at' : At sim (room + 1) .expression s s') :
    Agrees place n sim room (fun _ => .text) Same (importation (.ofLexer s))
      (importation (.ofLexer s')) := by
  refine (string_agrees lock at').bind fun template _ s₁ s₁' same there => ?_
  cases same
  refine (expect_agrees lock _ _ (there.mono (Nat.le_succ _))).bind fun _ _ s₂ s₂' _ there => ?_
  refine (identifier_agrees lock (there.mono (Nat.le_succ _))).bind
    fun name _ s₃ s₃' same there => ?_
  cases same
  have names := repeating_agrees there fun tight =>
    furtherNames_agrees lock (Nat.le_refl _) (Nat.le_refl _) tight
  refine names.bind fun names _ s₄ s₄' same there => ?_
  cases same
  refine (expectTagEnd_agrees lock (there.mono (Nat.le_succ _))).bind fun _ _ s₅ s₅' _ there => ?_
  exact .pure rfl there

theorem parentMark_agrees (at' : At sim (room + 1) .expression s s') :
    Agrees place n sim room (fun _ => .text) Same (parentMark (.ofLexer s))
      (parentMark (.ofLexer s')) :=
  (expectTagEnd_agrees lock at').bind fun _ _ _ _ _ there => .pure rfl there

/-- Behind the first word of a tag, which is a keyword or nothing. -/
theorem statementWith_agrees {t t' : Token} (seen : Seen place n t t' s)
    (bodies : ∀ k ≤ room, BodiesAgree place n sim k p p')
    (at' : At sim (room + 1) t.kind.modeAfter s s') :
    Agrees place n sim room (fun _ => .text) Same (statementWith p t (.ofLexer s))
      (statementWith p' t' (.ofLexer s')) := by
  have again := seen
  obtain ⟨m, rfl, -⟩ := seen
  have whole := bodies room (Nat.le_refl _)
  unfold statementWith
  rw [Token.kind_later]
  cases kind : t.kind with
  | keyword k =>
    rw [kind] at at'
    cases k with
    | forTag => exact loopWith_agrees lock whole at'
    | ifTag => exact choiceWith_agrees lock bodies at'
    | setTag => exact assignment_agrees lock at'
    | extendsTag => exact stringTag_agrees lock .inherit at'
    | blockTag => exact blockWith_agrees lock whole at'
    | includeTag => exact stringTag_agrees lock .inclusion at'
    | macroTag => exact definitionWith_agrees lock whole at'
    | fromTag => exact importation_agrees lock at'
    | parentTag => exact parentMark_agrees lock at'
    | _ => exact fail_agrees again (fun _ => rfl) rfl
  | _ => exact fail_agrees again (fun _ => rfl) rfl

/-! ### Bodies -/

theorem output_agrees (at' : At sim (room + 1) .expression s s') :
    Agrees place n sim room (fun _ => .text) Same (output (.ofLexer s))
      (output (.ofLexer s')) := by
  refine (expression_agrees lock at').bind fun e _ s₁ s₁' same there => ?_
  cases same
  refine (expect_agrees lock _ _ (there.mono (Nat.le_succ _))).bind fun _ _ s₂ s₂' _ there => ?_
  exact .pure rfl there

theorem closeBody_agrees {t t' : Token} (same : t'.kind = t.kind) {known : List TokenKind}
    (closes : t.kind ∈ known) (at' : At sim (room + 1) .expression s s') :
    Agrees place n sim (room + 1) (fun _ => modeAfterBody ([], some t))
      (fun _ _ s₁ => SameBody known ([], some t) ([], some t') s₁) (closeBody t (.ofLexer s))
      (closeBody t' (.ofLexer s')) := by
  have made : ∀ s₁, SameBody known ([], some t) ([], some t') s₁ := fun _ =>
    ⟨rfl, congrArg some same, fun _ found => Option.some.inj found ▸ closes⟩
  unfold closeBody
  rw [same]
  refine .ite (fun elif => ?_) fun other => ?_
  · exact .pure (made s) (modeAfterBody_elif elif ▸ at')
  · have mode : modeAfterBody ([], some t) = .text :=
      modeAfterBody_other fun _ found => Option.some.inj found ▸ other
    have ended := ((expectTagEnd_agrees lock at').mono (Nat.le_succ _)).imp fun _ _ s₁ _ => made s₁
    rw [mode]
    exact ended

omit lock in
/-- A node is followed by the rest of the body. -/
theorem BodiesAgree.bind_rest (bodies : BodiesAgree place n sim room p p')
    {closers : List TokenKind} (proper : ∀ k ∈ closers, k.modeAfter = .expression)
    {f : List Node → List Node} (at' : At sim room .text s s') :
    Agrees place n sim room modeAfterBody (SameBody closers)
      ((do let (nodes, closer) ← p closers; pure (f nodes, closer) : Parse Body) (.ofLexer s))
      ((do let (nodes, closer) ← p' closers; pure (f nodes, closer) : Parse Body) (.ofLexer s')) := by
  refine Agrees.bind (bodies closers proper at') ?_
  rintro ⟨nodes, t⟩ ⟨nodes', t'⟩ s₁ s₁' ⟨same, last⟩ there
  cases same
  exact .pure ⟨rfl, last⟩ there

/-- Output and the rest of the body. -/
theorem outputRest_agrees (bodies : BodiesAgree place n sim (room + 1) p p')
    {closers : List TokenKind} (proper : ∀ k ∈ closers, k.modeAfter = .expression)
    (at' : At sim (room + 1) .expression s s') :
    Agrees place n sim (room + 1) modeAfterBody (SameBody closers)
      ((do
        let node ← output
        let (nodes, closer) ← p closers
        pure (node :: nodes, closer) : Parse Body) (.ofLexer s))
      ((do
        let node ← output
        let (nodes, closer) ← p' closers
        pure (node :: nodes, closer) : Parse Body) (.ofLexer s')) := by
  refine ((output_agrees lock at').mono (Nat.le_succ _)).bind fun node _ s₁ s₁' same there => ?_
  cases same
  exact bodies.bind_rest proper there

/-- A tag closes the body, or it makes a node and the rest of the body follows. -/
theorem tagRest_agrees (bodies : ∀ k ≤ room + 1, BodiesAgree place n sim k p p')
    {closers : List TokenKind} (proper : ∀ k ∈ closers, k.modeAfter = .expression)
    (at' : At sim (room + 1) .expression s s') :
    Agrees place n sim (room + 1) modeAfterBody (SameBody closers)
      ((do
        let first ← next
        if closers.contains first.kind then
          closeBody first
          pure ([], some first)
        else
          let node ← statementWith p first
          let (nodes, closer) ← p closers
          pure (node :: nodes, closer) : Parse Body) (.ofLexer s))
      ((do
        let first ← next
        if closers.contains first.kind then
          closeBody first
          pure ([], some first)
        else
          let node ← statementWith p' first
          let (nodes, closer) ← p' closers
          pure (node :: nodes, closer) : Parse Body) (.ofLexer s')) := by
  refine ((next_agrees lock at').mono (Nat.le_succ _)).bind
    fun first first' s₁ s₁' seen there => ?_
  have again := seen.1
  obtain ⟨⟨m, rfl, -⟩, -⟩ := seen
  rw [Token.kind_later]
  refine .ite (fun closes => ?_) fun other => ?_
  · have closes : first.kind ∈ closers := by simpa using closes
    have mode := proper _ closes
    rw [mode] at there
    refine Agrees.bind (closeBody_agrees lock rfl closes there) ?_
    rintro _ _ s₂ s₂' made there
    exact .pure made there
  · have inner := BodiesAgree.less bodies (Nat.le_succ room)
    refine ((statementWith_agrees lock again inner there).mono (Nat.le_succ _)).bind
      fun node _ s₂ s₂' same there => ?_
    cases same
    exact (bodies _ (Nat.le_refl _)).bind_rest proper there

/-- **Bodies agree**: with a turn for each token that is ahead, both runs make the same, or fail
over the same token. -/
theorem bodyUpTo_agrees {turns turns' : Nat} (enough : room ≤ turns) (enough' : room ≤ turns') :
    BodiesAgree place n sim room (bodyUpTo turns) (bodyUpTo turns') := by
  induction turns generalizing turns' room with
  | zero =>
    intro closers s s' proper at'
    obtain ⟨less, rfl⟩ := at'.pos
    omega
  | succ turns ih =>
    intro closers s s' proper at'
    obtain ⟨less, rfl⟩ := at'.pos
    cases turns' with
    | zero => omega
    | succ turns' =>
      have bodies : ∀ k ≤ less, BodiesAgree place n sim k (bodyUpTo turns) (bodyUpTo turns') :=
        fun k le => ih (by omega) (by omega)
      refine read_agrees lock at'.sim fun t m s₁ s₁' found together shift => ?_
      have seen : t.kind ≠ .text → Seen place n t (t.later m) s₁ := fun proper =>
        ⟨m, rfl, shift proper⟩
      rw [Token.kind_later]
      by_cases ended : t.kind = .eof
      · have there := at_of_end lock at' found ended together
        have seen := seen (by rw [ended]; exact nofun)
        rw [ended]
        refine .ite (fun none => ?_) fun some => ?_
        · exact .pure ⟨rfl, rfl, nofun⟩ there
        · exact fail_end_agrees seen ended (fun _ => rfl) rfl
      · have there := (at_of_token lock at' found ended together).2
        cases kind : t.kind with
        | eof => exact absurd kind ended
        | text =>
          rw [kind] at there
          exact ((bodies less (Nat.le_refl _)).bind_rest proper there).mono (Nat.le_succ _)
        | variableStart =>
          rw [kind] at there
          obtain ⟨few, rfl⟩ := there.pos
          exact (outputRest_agrees lock (bodies _ (Nat.le_refl _)) proper there).mono
            (Nat.le_succ _)
        | tagStart =>
          rw [kind] at there
          obtain ⟨few, rfl⟩ := there.pos
          exact (tagRest_agrees lock bodies proper there).mono (Nat.le_succ _)
        | _ => exact fail_agrees (seen (by rw [kind]; nofun)) (fun _ => rfl) rfl

/-- **What two lexers in lockstep are read as.** -/
theorem body_agrees (together : sim s s') (text : s.mode = .text) :
    Agrees place n sim (s.size + 1) modeAfterBody (SameBody []) (body [] (.ofLexer s))
      (body [] (.ofLexer s')) := by
  have at' : At sim (s.size + 1) .text s s' := text ▸ at_of_sim lock together (Nat.lt_succ_self _)
  exact repeating_agrees at' fun tight =>
    bodyUpTo_agrees lock (Nat.le_refl _) (Nat.le_refl _) [] nofun tight

end

end Parse
end Stencil
