/-
# Failures over a source are contained

The reader of templates ends for every source, with nodes or with a failure, and
it never runs out of turns. A failure is one of the lexer or of the grammar, on a
line of the source, or it is one of two faults. The account of the run tells when
it comes to these: the lexer was asked for a token at a letter or a digit beyond
ASCII inside a tag, or an integer of too many digits was converted. So a source in
ASCII in which no digits run on for so long comes to no fault.

Key definitions: `Parse.Account`.
Key theorems: `Parse.bodyUpTo_accounted`, `Parse.Account.fault_iff`,
`parseTemplate_contained`.
-/
import Stencil.Proofs.Accounts
import Stencil.Proofs.Composition

namespace Stencil

open Lexer

namespace Parse

variable {β : Type} {source : String} {room : Nat} {s : Lexer}

/-! ### Tags and bodies -/

section

variable {body : List TokenKind → Parse Body}

theorem loopWith_accounted (bodies : ∀ closers, Reads source room (body closers))
    (here : Within source (room + 1) s) :
    Accounted source room Anything (loopWith body) s := by
  refine (identifier_accounted here).bind fun _ _ _ there => ?_
  refine (expect_accounted _ _ (there.mono (Nat.le_succ _))).bind fun _ _ _ there => ?_
  refine (primary_accounted (there.mono (Nat.le_succ _))).bind fun _ _ _ there => ?_
  refine (filter?_accounted there).bind fun _ _ _ there => ?_
  refine (expectTagEnd_accounted (there.mono (Nat.le_succ _))).bind fun _ _ _ there => ?_
  exact (bodies _ there).bind fun _ _ _ there => .pure trivial there

/-- A condition, the body behind it, and what follows the body. -/
theorem branch_accounted {g : Option Token → Parse Alternative}
    {f : Condition → List Node → Alternative → β}
    (bodies : ∀ closers, Reads source room (body closers))
    (others : ∀ closer, Reads source room (g closer)) (here : Within source (room + 1) s) :
    Accounted source room Anything
      (do
        let c ← condition
        expectTagEnd
        let (nodes, closer) ← body branchClosers
        let rest ← g closer
        pure (f c nodes rest) : Parse β) s := by
  refine (condition_accounted here).bind fun _ _ _ there => ?_
  refine (expectTagEnd_accounted (there.mono (Nat.le_succ _))).bind fun _ _ _ there => ?_
  refine (bodies _ there).bind fun b _ _ there => ?_
  exact (others b.2 there).bind fun _ _ _ there => .pure trivial there

/-- With a turn for each token that is left. -/
theorem alternativeWith_accounted {turns : Nat} {closer : Option Token}
    (bodies : ∀ k ≤ room, ∀ closers, Reads source k (body closers)) (enough : room ≤ turns) :
    Reads source room (alternativeWith body turns closer) := by
  induction turns generalizing room closer with
  | zero =>
    intro s here
    obtain ⟨less, rfl⟩ := here.pos
    omega
  | succ turns ih =>
    intro s here
    obtain ⟨less, rfl⟩ := here.pos
    unfold alternativeWith
    split
    · refine Accounted.mono (?_ : Accounted source less _ _ _) (Nat.le_succ less)
      refine branch_accounted (bodies less (Nat.le_succ _)) (fun closer => ?_) here
      exact ih (fun k small => bodies k (Nat.le_succ_of_le small)) (Nat.le_of_succ_le_succ enough)
    · exact (bodies _ (Nat.le_refl _) _ here).bind fun _ _ _ there => .pure trivial there
    · exact .pure trivial here

theorem choiceWith_accounted (bodies : ∀ k ≤ room, ∀ closers, Reads source k (body closers))
    (here : Within source (room + 1) s) :
    Accounted source room Anything (choiceWith body) s := by
  have others (closer : Option Token) :
      Reads source room (repeating fun turns => alternativeWith body turns closer) :=
    fun there => .repeating there fun tight =>
      alternativeWith_accounted (fun k small => bodies k (Nat.le_trans small there.size))
        (Nat.le_refl _) tight
  exact branch_accounted (bodies room (Nat.le_refl _)) others here

theorem assignment_accounted (here : Within source (room + 1) s) :
    Accounted source room Anything assignment s := by
  refine (identifier_accounted here).bind fun _ _ _ there => ?_
  refine (expectOperator_accounted _ _ (there.mono (Nat.le_succ _))).bind fun _ _ _ there => ?_
  refine (expression_accounted (there.mono (Nat.le_succ _))).bind fun _ _ _ there => ?_
  exact (expectTagEnd_accounted (there.mono (Nat.le_succ _))).bind
    fun _ _ _ there => .pure trivial there

/-- A tag that holds one string. -/
theorem stringTag_accounted (node : String → Node) (here : Within source (room + 1) s) :
    Accounted source room Anything
      (do let name ← string; expectTagEnd; pure (node name) : Parse Node) s := by
  refine (string_accounted here).bind fun _ _ _ there => ?_
  exact (expectTagEnd_accounted (there.mono (Nat.le_succ _))).bind
    fun _ _ _ there => .pure trivial there

theorem blockWith_accounted (bodies : ∀ closers, Reads source room (body closers))
    (here : Within source (room + 1) s) :
    Accounted source room Anything (blockWith body) s := by
  refine (identifier_accounted here).bind fun _ _ _ there => ?_
  refine (expectTagEnd_accounted (there.mono (Nat.le_succ _))).bind fun _ _ _ there => ?_
  exact (bodies _ there).bind fun _ _ _ there => .pure trivial there

/-- With a turn for each token that is left. -/
theorem someParameters_accounted {turns : Nat} (enough : room < turns)
    (here : Within source (room + 1) s) :
    Accounted source room Anything (someParameters turns) s := by
  induction turns generalizing room s with
  | zero => omega
  | succ turns ih =>
    refine (identifier_accounted here).bind fun _ _ _ there => ?_
    obtain ⟨less, rfl⟩ := there.pos
    refine ((separator_accounted there).mono (Nat.le_succ _)).bind fun _ _ _ there => ?_
    refine .ite (fun _ => ?_) fun _ => .pure trivial there
    have behind := ih (Nat.lt_of_succ_lt_succ enough) there
    exact (behind.mono (Nat.le_succ _)).bind fun _ _ _ there => .pure trivial there

theorem parameters_accounted (here : Within source room s) :
    Accounted source room Anything parameters s := by
  refine (seesOperator_accounted ")" here).bind fun yes _ shown there => ?_
  refine .ite (fun few => ?_) fun _ => .repeating there fun tight =>
    (someParameters_accounted (Nat.lt_succ_self _) tight).mono (Nat.le_succ _)
  exact (next_of_shown (shown few) there).bind fun _ _ _ there => .pure trivial there

theorem definitionWith_accounted (bodies : ∀ closers, Reads source room (body closers))
    (here : Within source (room + 1) s) :
    Accounted source room Anything (definitionWith body) s := by
  refine (identifier_accounted here).bind fun _ _ _ there => ?_
  refine (expectOperator_accounted _ _ (there.mono (Nat.le_succ _))).bind fun _ _ _ there => ?_
  refine (parameters_accounted there).bind fun _ _ _ there => ?_
  refine (expectTagEnd_accounted (there.mono (Nat.le_succ _))).bind fun _ _ _ there => ?_
  exact (bodies _ there).bind fun _ _ _ there => .pure trivial there

/-- With a turn for each token that is left. -/
theorem furtherNames_accounted {turns : Nat} (enough : room ≤ turns) :
    Reads source room (furtherNames turns) := by
  induction turns generalizing room with
  | zero =>
    intro s here
    obtain ⟨less, rfl⟩ := here.pos
    omega
  | succ turns ih =>
    intro s here
    obtain ⟨less, rfl⟩ := here.pos
    refine (sees_accounted .tagEnd here).bind fun _ _ _ there => ?_
    refine .ite (fun _ => .pure trivial there) fun _ => ?_
    refine Accounted.mono (?_ : Accounted source less _ _ _) (Nat.le_succ less)
    refine (expectOperator_accounted _ _ there).bind fun _ _ _ there => ?_
    refine (identifier_accounted (there.mono (Nat.le_succ _))).bind fun _ _ _ there => ?_
    exact (ih (Nat.le_of_succ_le_succ enough) there).bind fun _ _ _ there => .pure trivial there

theorem importation_accounted (here : Within source (room + 1) s) :
    Accounted source room Anything importation s := by
  refine (string_accounted here).bind fun _ _ _ there => ?_
  refine (expect_accounted _ _ (there.mono (Nat.le_succ _))).bind fun _ _ _ there => ?_
  refine (identifier_accounted (there.mono (Nat.le_succ _))).bind fun _ _ _ there => ?_
  have names := Accounted.repeating there fun tight => furtherNames_accounted (Nat.le_refl _) tight
  refine names.bind fun _ _ _ there => ?_
  exact (expectTagEnd_accounted (there.mono (Nat.le_succ _))).bind
    fun _ _ _ there => .pure trivial there

/-- Behind the first word of a tag. -/
theorem statementWith_accounted {t : Token} (given : Given source t)
    (bodies : ∀ k ≤ room, ∀ closers, Reads source k (body closers))
    (here : Within source (room + 1) s) :
    Accounted source room Anything (statementWith body t) s := by
  have whole := bodies room (Nat.le_refl _)
  unfold statementWith
  split
  · exact loopWith_accounted whole here
  · exact choiceWith_accounted bodies here
  · exact assignment_accounted here
  · exact stringTag_accounted .inherit here
  · exact blockWith_accounted whole here
  · exact stringTag_accounted .inclusion here
  · exact definitionWith_accounted whole here
  · exact importation_accounted here
  · exact (expectTagEnd_accounted here).bind fun _ _ _ there => .pure trivial there
  · exact .fail given rfl

end

theorem output_accounted (here : Within source (room + 1) s) :
    Accounted source room Anything output s := by
  refine (expression_accounted here).bind fun _ _ _ there => ?_
  exact (expect_accounted _ _ (there.mono (Nat.le_succ _))).bind
    fun _ _ _ there => .pure trivial there

theorem closeBody_accounted (t : Token) (here : Within source room s) :
    Accounted source room Anything (closeBody t) s :=
  .ite (fun _ => .pure trivial here) fun _ => by
    obtain ⟨less, rfl⟩ := here.pos
    exact (expectTagEnd_accounted here).mono (Nat.le_succ _)

/-- A node in front of a body. -/
theorem cons_accounted {node : Node} {rest : Parse Body}
    (h : Accounted source room Anything rest s) :
    Accounted source room Anything
      (do let (nodes, closer) ← rest; Pure.pure (node :: nodes, closer)) s :=
  h.bind fun _ _ _ there => .pure trivial there

/-- **A body is accounted for**, with a turn for each token that is left. -/
theorem bodyUpTo_accounted {turns : Nat} (enough : room ≤ turns) (closers : List TokenKind) :
    Reads source room (bodyUpTo turns closers) := by
  induction turns generalizing room closers with
  | zero =>
    intro s here
    obtain ⟨less, rfl⟩ := here.pos
    omega
  | succ turns ih =>
    intro s here
    obtain ⟨less, rfl⟩ := here.pos
    have bodies : ∀ k ≤ less, ∀ closers, Reads source k (bodyUpTo turns closers) :=
      fun k small closers => ih (Nat.le_trans small (Nat.le_of_succ_le_succ enough)) closers
    have rest : Reads source less (bodyUpTo turns closers) := bodies less (Nat.le_refl _) closers
    unfold bodyUpTo
    refine read_accounted here (fun t s' given _ proper there => ?_) fun t s' given ended there => ?_
    · refine Accounted.mono (?_ : Accounted source less _ _ _) (Nat.le_succ less)
      split
      · next ended => exact absurd ended proper
      · exact cons_accounted (rest there)
      · refine (output_accounted (there.mono (Nat.le_succ _))).bind fun _ _ _ there => ?_
        exact cons_accounted (rest there)
      · refine (next_accounted (there.mono (Nat.le_succ _))).bind fun first _ ⟨known, _⟩ there => ?_
        refine .ite (fun _ => ?_) fun _ => ?_
        · exact (closeBody_accounted first there).bind fun _ _ _ there => .pure trivial there
        · refine (statementWith_accounted known bodies (there.mono (Nat.le_succ _))).bind
            fun _ _ _ there => ?_
          exact cons_accounted (rest there)
      · exact .fail given rfl
    · rw [ended]
      exact .ite (fun _ => .pure trivial there) fun _ => .fail given rfl

theorem body_accounted (closers : List TokenKind) : Reads source room (body closers) :=
  fun here => .repeating here fun tight => bodyUpTo_accounted (Nat.le_refl _) closers tight

/-- An account of how a template is read: what happens in order, all of it somewhere in the source,
and no repetition is exhausted. -/
structure Account (source : String) (es : List Event) : Prop where
  run : ∃ r, Runs (body []) (.ofLexer (.start source)) es r
  sound : ∀ e ∈ es, e.Sound source

theorem template_accounted (source : String) :
    Accounted source ((start source).size + 1) Anything (body []) (start source) :=
  body_accounted [] ⟨reached_start source, Nat.lt_succ_self _⟩

theorem exists_account (source : String) : ∃ es, Account source es := by
  cases template_accounted source with
  | made run sound _ _ => exact ⟨_, ⟨_, run⟩, sound⟩
  | failed run sound _ => exact ⟨_, ⟨_, run⟩, sound⟩

namespace Account

variable {es : List Event}

/-- **A fault stands in the account**, and what stands there that leads to a fault leads to it. -/
theorem fault_iff (account : Account source es) {f : Fault} :
    parseTemplate source = .error (.fault f) ↔ ∃ e ∈ es, e.Breaks (.fault f) := by
  obtain ⟨r, run⟩ := account.run
  have made := run.eq
  unfold parseTemplate
  rw [made]
  constructor
  · intro failed
    cases r with
    | ok made => cases failed
    | error halt => exact run.cause_of_fault rfl (Except.error.inj failed)
  · rintro ⟨e, happens, breaks⟩
    obtain ⟨halt, rfl, same⟩ := run.fails_of_mem breaks happens
    exact congrArg _ same

theorem stray_iff (account : Account source es) :
    parseTemplate source = .error (.fault .strayCharacter) ↔ ∃ s, .asked s ∈ es ∧ s.AtStray := by
  rw [account.fault_iff]
  constructor
  · rintro ⟨e, happens, breaks⟩
    cases e with
    | asked s => exact ⟨s, happens, (next_eq_fault_iff.mp breaks).2⟩
    | converted text => cases breaks.1
    | exhausted => cases breaks
  · rintro ⟨s, happens, stray⟩
    exact ⟨_, happens, next_eq_fault_iff.mpr ⟨rfl, stray⟩⟩

theorem tooLong_iff (account : Account source es) :
    parseTemplate source = .error (.fault .integerTooLong) ↔
      ∃ text, .converted text ∈ es ∧ '.' ∉ text.toList ∧ Number.digitLimit < text.toList.length := by
  have value_iff : ∀ {text}, .converted text ∈ es → (Number.value? text = none ↔
      '.' ∉ text.toList ∧ Number.digitLimit < text.toList.length) := fun happens => by
    obtain ⟨t, given, number, rfl⟩ := account.sound _ happens
    obtain ⟨proper, ⟨y, digits⟩, -⟩ := given.numeral number
    have known := Number.value?_eq_none_iff proper digits
    rwa [String.ofList_toList] at known
  rw [account.fault_iff]
  constructor
  · rintro ⟨e, happens, breaks⟩
    cases e with
    | asked s => cases (next_eq_fault_iff.mp breaks).1
    | converted text => exact ⟨text, happens, (value_iff happens).mp breaks.2⟩
    | exhausted => cases breaks
  · rintro ⟨text, happens, long⟩
    exact ⟨_, happens, rfl, (value_iff happens).mpr long⟩

end Account

end Parse

/-! ### Templates -/

/-- A source that leads to no nodes is itself the reason. -/
theorem explained_of_parseTemplate {source : String} {failure : Failure}
    (h : parseTemplate source = .error failure) : failure.Explained source := by
  unfold parseTemplate at h
  cases Parse.template_accounted source with
  | made run _ _ _ =>
    rw [run.eq] at h
    cases h
  | failed run _ explained =>
    rw [run.eq] at h
    cases h
    exact explained

/-- What a template comes to: nodes, or a failure over the source. -/
theorem parseTemplate_cases (source : String) :
    (∃ nodes, parseTemplate source = .ok nodes) ∨
      ∃ failure, parseTemplate source = .error failure ∧ failure.Contained source := by
  cases made : parseTemplate source with
  | ok nodes => exact .inl ⟨nodes, rfl⟩
  | error failure => exact .inr ⟨failure, rfl, (explained_of_parseTemplate made).contained⟩

/-- **A template that is accepted is read to its end**, and the lexer is between tags there. -/
theorem ended_of_parseTemplate {source : String} {nodes : List Node}
    (accepted : parseTemplate source = .ok nodes) :
    ∃ s, Parse.body [] (.ofLexer (.start source)) = .ok ((nodes, none), .ofLexer s) ∧
      s.mode = .text ∧ s.rest = [] ∧ s.position = source.length := by
  unfold parseTemplate at accepted
  cases made : Parse.body [] (.ofLexer (.start source)) with
  | error halt =>
    rw [made] at accepted
    cases accepted
  | ok result =>
    obtain ⟨⟨nodes', closer⟩, c⟩ := result
    rw [made] at accepted
    cases accepted
    rcases Parse.bodyUpTo_ended _ [] _ _ _ made with ⟨-, none, ts, s, s', items, row, ends, rfl⟩ |
      ⟨ts, s, -, -, us, t, k, -, -, -, -, member⟩
    · cases none
      have between := row.mode_of_items items rfl
      obtain ⟨passed, -, moves⟩ := row.moves
      obtain ⟨skipped, ahead, rfl⟩ := ends.ahead
      have behind : skipped ++ [] = s.rest := ahead.passed_rest
      refine ⟨_, rfl, between, rfl, ?_⟩
      have whole : source.toList = passed ++ s.rest := moves.rest
      have start : s.position = passed.length := moves.position.trans (Nat.zero_add _)
      calc s.position + skipped.length = (passed ++ s.rest).length := by
            rw [start, ← behind, List.append_nil, List.length_append]
        _ = source.length := by rw [← whole, String.length_toList]
    · cases member

/-- A source in ASCII with no run of so many digits in it is the reason for no fault. -/
theorem not_fault_of_ascii {source : String} (ascii : ∀ c ∈ source.toList, c.toNat < 0x80)
    (short : ∀ ds, ds <:+: source.toList → (∀ d ∈ ds, d.isDigit = true) →
      ds.length ≤ Number.digitLimit) (f : Fault) : parseTemplate source ≠ .error (.fault f) := by
  obtain ⟨es, account⟩ := Parse.exists_account source
  intro failed
  rcases (explained_of_parseTemplate failed).ofSource with rfl | rfl
  · obtain ⟨s, happens, stray⟩ := account.stray_iff.mp failed
    obtain ⟨passed, split⟩ := (account.sound _ happens).split
    obtain ⟨c, inside, beyond⟩ := stray.exists_mem
    have less := ascii c (by rw [split]; exact List.mem_append_right _ inside)
    omega
  · obtain ⟨text, happens, whole, long⟩ := account.tooLong_iff.mp failed
    obtain ⟨t, given, number, rfl⟩ := account.sound _ happens
    obtain ⟨-, ⟨y, digits⟩, inside⟩ := given.numeral number
    have all := digits.digits whole
    exact absurd (short _ inside all) (Nat.not_le_of_lt long)

/-- **Failures over a source are contained.** There is an account of how it is read in which no
repetition is exhausted. It comes to nodes or to a failure of the lexer or the grammar on a line of
the source; or to a fault, just if the account has the lexer asked for a token at a letter or digit
beyond ASCII inside a tag, or a numeral with no point and too many digits converted. A source in
ASCII that holds no such numeral leads to no fault. When there are nodes the lexer is at the end of
the source and between tags. -/
theorem parseTemplate_contained (source : String) :
    (∃ es, Parse.Account source es) ∧
      (∀ es, Parse.Account source es →
        (parseTemplate source = .error (.fault .strayCharacter) ↔
          ∃ s, .asked s ∈ es ∧ s.AtStray) ∧
        (parseTemplate source = .error (.fault .integerTooLong) ↔
          ∃ text, .converted text ∈ es ∧ '.' ∉ text.toList ∧
            Number.digitLimit < text.toList.length)) ∧
      ((∃ nodes, parseTemplate source = .ok nodes) ∨
        ∃ failure, parseTemplate source = .error failure ∧ failure.Contained source) ∧
      ((∀ c ∈ source.toList, c.toNat < 0x80) →
        (∀ ds, ds <:+: source.toList → (∀ d ∈ ds, d.isDigit = true) →
          ds.length ≤ Number.digitLimit) → ∀ f, parseTemplate source ≠ .error (.fault f)) ∧
      ∀ nodes, parseTemplate source = .ok nodes →
        ∃ s, Parse.body [] (.ofLexer (.start source)) = .ok ((nodes, none), .ofLexer s) ∧
          s.mode = .text ∧ s.rest = [] ∧ s.position = source.length :=
  ⟨Parse.exists_account source, fun _ account => ⟨account.stray_iff, account.tooLong_iff⟩,
    parseTemplate_cases source, not_fault_of_ascii, fun _ => ended_of_parseTemplate⟩

end Stencil
