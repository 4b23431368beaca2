/-
# What is put into a source

Something put into a source where it does not matter is passed by the lexer on the
way to the same token. Before that place the lexer gives the same tokens, each fit
by what is behind it as it was before; behind that place the same is ahead, on
later lines. So the lexers of both sources are in lockstep.

A comment does not matter in text, if what stands in front of it does not begin a
tag with it; blanks do not matter between the tokens of a tag. The nodes are the
same, and an error that arises behind the comment is only on a later line.

Key definitions: `Lexer.Spliced`, `Lexer.TextUpTo`, `InText`, `InTag`,
`errorPlace?`.
Key theorems: `Lexer.spliced_lockstep`, `parseTemplate_spliced`,
`comments_and_blanks_invisible`.
-/
import Mathlib.Data.List.Basic
import Stencil.Proofs.Alike
import Stencil.Proofs.Bodies
import Stencil.Proofs.Equality

namespace Stencil
namespace Lexer

/-! ### Something put in -/

/-- Two lexers of which one has something put in at `t`, where then `other` is ahead: before `t`
they read the same row of tokens, and behind it one is on later lines. -/
inductive Spliced (t : Lexer) (other : List Char) (n : Nat) : Lexer → Lexer → Prop
  | before {s : Lexer} {as : List Terminal} {passed : List Char} (row : Row s as t)
    (moves : s.rest = passed ++ t.rest) (fits : ∀ b ∈ as.getLast?, Fits b.kind t.rest other) :
    Spliced t other n s (s.withRest (passed ++ other))
  | behind {s s' : Lexer} (shifted : Shifted n s s') : Spliced t other n s s'

/-- A token has a width, unless it is text. -/
theorem Step.width_pos {s s' : Lexer} {read : Token} (h : Step s read.terminal s')
    (proper : read.kind ≠ .text) : 0 < read.width := by
  have wide : ∀ {cs : List Char}, read.value = String.ofList cs → cs ≠ [] →
      0 < read.value.length := fun same some => by
    rw [same, String.length_ofList]
    exact List.length_pos_iff.mpr some
  obtain ⟨skipped, written, ahead, -⟩ := h.ahead
  have noEnd := ahead.kind_ne_eof
  obtain ⟨kind, value, line⟩ := read
  simp only [Token.terminal] at ahead noEnd proper wide
  have plain : kind ≠ .string → 0 < value.length → 0 < Token.width ⟨kind, value, line⟩ := by
    intro other long
    cases kind with
    | string => exact absurd rfl other
    | eof => exact absurd rfl noEnd
    | _ => exact long
  generalize s.mode = mode at ahead
  generalize s.rest = cs at ahead
  generalize s'.rest = left at ahead
  cases ahead with
  | text => exact absurd rfl proper
  | opening passes closed none found =>
    refine plain ?_ (wide rfl (List.cons_ne_nil _ _))
    unfold openingKind
    split <;> decide
  | lexeme blank lex =>
    by_cases text : kind = .string
    · subst text
      exact Nat.succ_pos _
    · refine plain text ?_
      cases lex with
      | variableEnd => exact wide rfl (List.cons_ne_nil _ _)
      | tagEnd => exact wide rfl (List.cons_ne_nil _ _)
      | string => exact absurd rfl text
      | pipe => exact wide rfl (List.cons_ne_nil _ _)
      | _ => exact wide rfl (List.cons_ne_nil _ _)

/-- Where one lexer stands behind what is put in, or passes it, it stands behind it then. -/
theorem Alike.spliced {t : Lexer} {other : List Char} {place n : Nat} {s s' s₁ : Lexer}
    {read : Token} (h : Alike n s s') (found : s.next = (.ok read, s₁)) :
    ∃ m s₁', s'.next = (.ok (read.later m), s₁') ∧ Spliced t other n s₁ s₁' ∧
      (read.kind ≠ .text → place ≤ s₁.position - read.width → m = n) := by
  obtain ⟨m, s₁', found', shifted, same⟩ := h.token found
  exact ⟨m, s₁', found', .behind shifted, fun proper _ => same proper⟩

theorem Alike.fails {place n : Nat} {s s' s₁ : Lexer} {f : Failure} (h : Alike n s s')
    (found : s.next = (.error f, s₁)) :
    ∃ m s₁', s'.next = (.error (f.later m), s₁') ∧ (place ≤ s₁.position - f.width → m = n) := by
  obtain ⟨s₁', found', -⟩ := h.failure found
  exact ⟨n, s₁', found', fun _ => rfl⟩

/-- A token in front of the place is the same. -/
theorem spliced_before {t : Lexer} {other : List Char} {place n : Nat} {s s₁ s₂ : Lexer}
    {a : Terminal} {as : List Terminal} {passed : List Char} {read : Token} (first : Step s a s₂)
    (rest : Row s₂ as t) (moves : s.rest = passed ++ t.rest)
    (fits : ∀ b ∈ (a :: as).getLast?, Fits b.kind t.rest other) (early : t.position ≤ place)
    (found : s.next = (.ok read, s₁)) :
    ∃ m s₁', (s.withRest (passed ++ other)).next = (.ok (read.later m), s₁') ∧
      Spliced t other n s₁ s₁' ∧
      (read.kind ≠ .text → place ≤ s₁.position - read.width → m = n) := by
  obtain ⟨front, some, here⟩ := first.moves
  obtain ⟨back, -, there⟩ := rest.moves
  have same : passed = front ++ back := by
    rw [here.rest, there.rest, ← List.append_assoc] at moves
    exact (List.append_cancel_right moves).symm
  have behind : Fits a.kind s₂.rest (back ++ other) := rest.fits first there.rest fits
  have last : ∀ b ∈ as.getLast?, Fits b.kind t.rest other := fun b hb =>
    fits b (by rw [List.getLast?_cons, Option.mem_def.mp hb]; rfl)
  have step := first
  obtain ⟨proper, line, found'⟩ := first
  rw [found] at found'
  cases found'
  refine ⟨0, s₁.withRest (back ++ other), ?_, .before rest there.rest last, fun noText late => ?_⟩
  · rw [same, List.append_assoc]
    exact next_refit found proper here.rest behind
  · have wide := @Step.width_pos _ _ ⟨a.kind, a.value, line⟩ step noText
    have long : 0 < front.length := List.length_pos_iff.mpr some
    have reached := here.position
    have left := there.position
    omega

/-- **The lexers of a source and of one with something put in are in lockstep**, if they are alike
where it is put in. -/
theorem spliced_lockstep {t : Lexer} {other : List Char} {place n : Nat}
    (here : Alike n t (t.withRest other)) (early : t.position ≤ place) :
    Lockstep place n (Spliced t other n) := by
  refine ⟨fun together found => ?_, fun together found => ?_⟩
  · cases together with
    | behind shifted => exact shifted.alike.spliced found
    | @before as passed row moves fits =>
      cases row with
      | nil =>
        have none : passed = [] := List.append_left_eq_self.mp moves.symm
        rw [none]
        exact here.spliced found
      | cons first rest => exact spliced_before first rest moves fits early found
  · cases together with
    | behind shifted => exact shifted.alike.fails found
    | @before as passed row moves fits =>
      cases row with
      | nil =>
        have none : passed = [] := List.append_left_eq_self.mp moves.symm
        rw [none]
        exact here.fails found
      | cons first rest =>
        obtain ⟨-, line, found'⟩ := first
        rw [found'] at found
        cases found

/-! ### A comment in text -/

/-- Text and whole comments up to some place. -/
inductive TextUpTo : List Char → List Char → Prop
  | here {cs : List Char} : TextUpTo cs cs
  | char {c : Char} {cs back : List Char} (plain : ∀ d ∈ cs.head?, opens c d = false)
    (rest : TextUpTo cs back) : TextUpTo (c :: cs) back
  | comment {body cs back : List Char} (never : NeverCloses body) (rest : TextUpTo cs back) :
    TextUpTo ('\x7b' :: '#' :: (body ++ '#' :: '\x7d' :: cs)) back

/-- Text up to some place is passed to its end. -/
theorem TextUpTo.passes {cs back : List Char} (h : TextUpTo cs back) :
    ∃ w r, cs = w ++ back ∧ Passes w r ∧ r.rest = [] := by
  induction h with
  | here => exact ⟨[], _, rfl, .nil, rfl⟩
  | @char c cs back plain _ ih =>
    obtain ⟨w, r, rfl, passes, ended⟩ := ih
    refine ⟨c :: w, r.keep c, rfl, .char (fun d hd => plain d ?_) passes, ended⟩
    rw [List.head?_append, hd]
    rfl
  | @comment body cs back never _ ih =>
    obtain ⟨w, r, rfl, passes, ended⟩ := ih
    exact ⟨_, _, by simp, .comment never passes, ended⟩

/-- A region leads up to its end. -/
theorem Passes.textUpTo {cs : List Char} {r : Region} (h : Passes cs r) : TextUpTo cs r.rest := by
  induction h with
  | nil => exact .here
  | tag => exact .here
  | unclosed => exact .here
  | comment never _ ih => exact .comment never ih
  | char plain _ ih => exact .char plain ih

/-- At a tag the text ends. -/
theorem TextUpTo.eq_of_tagged {cs back : List Char} (h : TextUpTo cs back)
    (stop : cs = [] ∨ Tagged cs) : back = cs := by
  cases h with
  | here => rfl
  | @char c cs _ plain rest =>
    rcases stop with ended | ⟨d, tail, known, first⟩
    · cases ended
    · cases first
      have opened := plain d rfl
      rcases known with rfl | rfl <;> cases opened
  | comment never rest =>
    rcases stop with ended | ⟨d, tail, known, first⟩
    · cases ended
    · cases first
      rcases known with known | known <;> cases known

/-- A token of text leads up to what stands behind it. -/
theorem Ahead.textUpTo {mode : Mode} {cs skipped written rest : List Char} {kind : TokenKind}
    {value : String} (h : Ahead mode cs (.token skipped kind value written rest))
    (text : kind = .text) : TextUpTo cs rest := by
  obtain ⟨r, passes, -, -, -, rfl⟩ := h.textRegion text
  exact passes.textUpTo

/-- No text follows text. -/
theorem Step.ne_text {s s' s'' : Lexer} {a b : Terminal} (first : Step s a s')
    (text : a.kind = .text) (second : Step s' b s'') : b.kind ≠ .text := by
  intro again
  obtain ⟨_, _, ahead, -⟩ := first.ahead
  obtain ⟨_, _, ahead', -⟩ := second.ahead
  have same := (ahead'.textUpTo again).eq_of_tagged (ahead.tagged text)
  have less := second.rest_lt
  rw [same] at less
  exact absurd less (Nat.lt_irrefl _)

/-- Behind text that does not end in a brace nothing begins with it. -/
theorem apart_of_getLast? {cs : List Char} (h : cs.getLast? ≠ some '\x7b') (ds : List Char) :
    Apart cs ds := by
  intro c last d _
  have other : c ≠ '\x7b' := fun brace => h (brace ▸ last)
  simp [opens, other]

/-- A comment with something in it. -/
def commented (body : List Char) : List Char :=
  '\x7b' :: '#' :: (body ++ ['#', '\x7d'])

theorem newlines_commented (body : List Char) : newlines (commented body) = newlines body := by
  simp [commented, newlines]

/-- Where a comment is put into text, the lexers are alike. -/
theorem alike_of_comment {t : Lexer} {w back body : List Char} {r : Region} (text : t.mode = .text)
    (ahead : t.rest = w ++ back) (passes : Passes w r) (ended : r.rest = [])
    (seam : w.getLast? ≠ some '\x7b') (never : NeverCloses body) :
    Alike (newlines body) t (t.withRest (w ++ (commented body ++ back))) := by
  have behind := passes_region back
  have inner : Passes (commented body ++ back) ((region back).drop (commented body)) := by
    have := Passes.comment never behind
    simpa [commented] using this
  have whole := passes.append ended (apart_of_getLast? seam _) behind
  have whole' := passes.append ended (apart_of_getLast? seam _) inner
  rw [← ahead] at whole
  refine alike_of_regions text text whole whole' (fun _ => rfl) rfl rfl (Nat.le_refl _) ?_
  show t.line + newlines (r.passed ++ (commented body ++ (region back).passed)) =
    t.line + newlines (r.passed ++ (region back).passed) + newlines body
  rw [newlines_append, newlines_append, newlines_append, newlines_commented]
  omega

/-! ### Blanks in a tag -/

/-- What is come upon behind something that is skipped. -/
def Sight.behind (blanks : List Char) : Sight → Sight
  | .token skipped kind value written rest => .token (blanks ++ skipped) kind value written rest
  | .finish skipped => .finish (blanks ++ skipped)
  | .stuck skipped failure rest => .stuck (blanks ++ skipped) failure rest

theorem Ahead.behind {cs blanks : List Char} {g : Sight} (h : Ahead .expression cs g)
    (blank : ∀ c ∈ blanks, Text.isBlank c = true) :
    Ahead .expression (blanks ++ cs) (g.behind blanks) := by
  cases h with
  | lexeme blank' lex =>
    rw [← List.append_assoc]
    exact .lexeme (List.forall_mem_append.mpr ⟨blank, blank'⟩) lex
  | tagUnclosed blank' => exact .tagUnclosed (List.forall_mem_append.mpr ⟨blank, blank'⟩)
  | stuck blank' stuck first =>
    rw [← List.append_assoc]
    exact .stuck (List.forall_mem_append.mpr ⟨blank, blank'⟩) stuck first

theorem Sight.later_behind {blanks blanks' : List Char} {n line : Nat}
    (lines : newlines blanks' = newlines blanks + n) (g : Sight) :
    Sight.Later n line line (g.behind blanks) (g.behind blanks') := by
  cases g with
  | token skipped kind value written rest =>
    refine .token (m := n) ?_ (fun _ => rfl) ?_ <;>
    · simp only [newlines_append]
      omega
  | finish skipped =>
    refine .finish ?_
    simp only [newlines_append]
    omega
  | stuck skipped failure rest =>
    refine .stuck ?_
    simp only [newlines_append]
    omega

/-- Where blanks are put between tokens, the lexers are alike. -/
theorem alike_of_blanks {t : Lexer} {gap back blanks : List Char} (tag : t.mode = .expression)
    (ahead : t.rest = gap ++ back) (between : ∀ c ∈ gap, Text.isBlank c = true)
    (blank : ∀ c ∈ blanks, Text.isBlank c = true) :
    Alike (newlines blanks) t (t.withRest (gap ++ (blanks ++ back))) := by
  obtain ⟨g, sight⟩ := exists_ahead .expression back
  have first := sight.behind between
  have second := sight.behind (List.forall_mem_append.mpr ⟨between, blank⟩)
  rw [← ahead, ← tag] at first
  rw [List.append_assoc, ← tag] at second
  exact @alike_of_later _ t (t.withRest _) _ _ first second rfl
    (g.later_behind (newlines_append gap blanks))

/-- Blanks may be put in front of what stands behind a token. -/
theorem settles_blanks {blanks : List Char} (blank : ∀ c ∈ blanks, Text.isBlank c = true)
    (back : List Char) : Settles back (blanks ++ back) := by
  cases blanks with
  | nil => exact .inr ⟨rfl, .inr rfl⟩
  | cons c blanks => exact .inl (blank c (List.mem_cons_self))

theorem fits_of_settles {kind : TokenKind} {y z : List Char} (proper : kind ≠ .text)
    (h : Settles y z) : Fits kind y z := by
  cases kind with
  | text => exact absurd rfl proper
  | variableStart => trivial
  | variableEnd => trivial
  | tagStart => trivial
  | tagEnd => trivial
  | _ => exact h

end Lexer

open Lexer

/-! ### Sources -/

/-- A place between tags, with what stands in front of it and behind it: where a token ends in text,
or among the text and the whole comments behind it. -/
def InText (source : String) (front back : List Char) : Prop :=
  source.toList = front ++ back ∧ ∃ as t, Row (.start source) as t ∧ t.mode = .text ∧
    TextUpTo t.rest back

/-- A place inside a tag, with what stands in front of it and behind it: where a token ends, or
among the blanks behind it. -/
def InTag (source : String) (front back : List Char) : Prop :=
  source.toList = front ++ back ∧ ∃ as t gap, Row (.start source) as t ∧ t.mode = .expression ∧
    (∀ c ∈ gap, Text.isBlank c = true) ∧ t.rest = gap ++ back

/-- The place of the error in a source that is rejected. -/
def errorPlace? (source : String) : Option Nat :=
  match Parse.body [] (.ofLexer (.start source)) with
  | .ok _ => none
  | .error halt => some halt.place

/-- A source that is rejected has a place of the error. -/
theorem exists_errorPlace {source : String} {failure : Failure}
    (h : parseTemplate source = .error failure) : ∃ late, errorPlace? source = some late := by
  unfold parseTemplate at h
  unfold errorPlace?
  cases made : Parse.body [] (.ofLexer (.start source)) with
  | ok =>
    rw [made] at h
    cases h
  | error halt => exact ⟨_, rfl⟩

theorem ends_of_modeAfter {kind : TokenKind} (text : kind.modeAfter = .text)
    (proper : kind ≠ .text) : kind = .variableEnd ∨ kind = .tagEnd := by
  cases kind with
  | text => exact absurd rfl proper
  | variableEnd => exact .inl rfl
  | tagEnd => exact .inr rfl
  | _ => cases text

/-- The tokens in front of a place in text can be taken to end in a tag, if there are any. -/
theorem exists_row_of_inText {source : String} {back : List Char} {as : List Terminal}
    {t : Lexer} (row : Row (.start source) as t) (text : t.mode = .text)
    (inside : TextUpTo t.rest back) :
    ∃ as t, Row (.start source) as t ∧ t.mode = .text ∧ TextUpTo t.rest back ∧
      ∀ b ∈ as.getLast?, b.kind = .variableEnd ∨ b.kind = .tagEnd := by
  generalize long : as.length = k
  induction k generalizing as t with
  | zero =>
    obtain rfl := List.eq_nil_of_length_eq_zero long
    exact ⟨[], t, row, text, inside, nofun⟩
  | succ k ih =>
    obtain ⟨init, b, rfl⟩ := (List.eq_nil_or_concat as).resolve_left (by rintro rfl; cases long)
    rw [List.concat_eq_append] at row long
    obtain ⟨t₀, front, last⟩ := row.split
    cases last with
    | cons step rest =>
      cases rest
      by_cases kind : b.kind = .text
      · -- What is text in front of the place belongs to the same region.
        obtain ⟨skipped, written, ahead, -⟩ := step.ahead
        have text₀ : t₀.mode = .text := by
          rw [← step.modeBefore, kind]
          rfl
        have whole : TextUpTo t₀.rest back := by
          rw [inside.eq_of_tagged (ahead.tagged kind)]
          exact ahead.textUpTo kind
        exact ih front text₀ whole (by simpa using long)
      · refine ⟨_, t, row, text, inside, fun b' last => ?_⟩
        rw [List.getLast?_concat, Option.mem_some_iff] at last
        exact last ▸ ends_of_modeAfter (step.mode.symm.trans text) kind

/-- What is read in a source and in one with something put in. -/
theorem parseTemplate_spliced {source : String} {as : List Terminal} {t : Lexer}
    {other passed : List Char} {place n : Nat} (row : Row (.start source) as t)
    (moves : source.toList = passed ++ t.rest) (fits : ∀ b ∈ as.getLast?, Fits b.kind t.rest other)
    (here : Alike n t (t.withRest other)) (early : t.position ≤ place) :
    (∀ nodes, parseTemplate source = .ok nodes →
      parseTemplate (String.ofList (passed ++ other)) = .ok nodes) ∧
    ∀ failure, parseTemplate source = .error failure → ∀ late ∈ errorPlace? source,
      place ≤ late →
        parseTemplate (String.ofList (passed ++ other)) = .error (failure.later n) := by
  have lock := spliced_lockstep here early
  have together : Spliced t other n (.start source)
      ((Lexer.start source).withRest (passed ++ other)) :=
    .before row moves fits
  have same : Lexer.start (String.ofList (passed ++ other)) =
      (Lexer.start source).withRest (passed ++ other) := by
    simp [Lexer.start, withRest]
  have agrees := Parse.body_agrees lock together rfl
  unfold parseTemplate errorPlace?
  rw [same]
  generalize Parse.body [] (.ofLexer (.start source)) = result at agrees ⊢
  generalize Parse.body [] (.ofLexer _) = result' at agrees ⊢
  cases agrees with
  | @ok made made' _ _ both there =>
    obtain ⟨nodes, closer⟩ := made
    obtain ⟨nodes', closer'⟩ := made'
    obtain ⟨same, -⟩ := both
    cases same
    exact ⟨fun nodes found => found, fun failure found => nomatch found⟩
  | @error halt halt' m failure shift =>
    refine ⟨fun nodes found => (nomatch found), fun failure' found late here behind => ?_⟩
    obtain rfl := Option.some.inj here
    obtain rfl := Except.error.inj found
    rw [shift behind] at failure
    exact congrArg Except.error failure

/-- A comment put into text. -/
theorem parseTemplate_commented {source : String} {front back body : List Char}
    (inside : InText source front back) (seam : front.getLast? ≠ some '\x7b')
    (never : NeverCloses body) :
    (∀ nodes, parseTemplate source = .ok nodes →
      parseTemplate (String.ofList (front ++ commented body ++ back)) = .ok nodes) ∧
    ∀ failure, parseTemplate source = .error failure → ∀ late ∈ errorPlace? source,
      front.length ≤ late → parseTemplate (String.ofList (front ++ commented body ++ back)) =
        .error (failure.later (newlines body)) := by
  obtain ⟨whole, as, t, row, text, inside⟩ := inside
  obtain ⟨as, t, row, text, inside, ends⟩ := exists_row_of_inText row text inside
  obtain ⟨passed, -, moves⟩ := row.moves
  obtain ⟨w, r, ahead, passes, ended⟩ := inside.passes
  have whole' : source.toList = passed ++ t.rest := moves.rest
  have split : front = passed ++ w := by
    rw [whole', ahead, ← List.append_assoc] at whole
    exact (List.append_cancel_right whole).symm
  have seam' : w.getLast? ≠ some '\x7b' := fun brace => seam (by
    rw [split, List.getLast?_append, brace]
    rfl)
  have early : t.position ≤ front.length := by
    have first : (Lexer.start source).position = 0 := rfl
    rw [moves.position, split, List.length_append, first]
    omega
  have fits : ∀ b ∈ as.getLast?, Fits b.kind t.rest (w ++ (commented body ++ back)) := by
    intro b last
    rcases ends b last with kind | kind <;>
    · rw [kind]
      trivial
  have here := alike_of_comment text ahead passes ended seam' never
  have spliced := parseTemplate_spliced row whole' fits here early
  have same : passed ++ (w ++ (commented body ++ back)) = front ++ commented body ++ back := by
    simp [split]
  rwa [same] at spliced

/-- Blanks put between tokens. -/
theorem parseTemplate_blanks {source : String} {front back blanks : List Char}
    (inside : InTag source front back) (blank : ∀ c ∈ blanks, Text.isBlank c = true) :
    ∀ nodes, parseTemplate source = .ok nodes →
      parseTemplate (String.ofList (front ++ blanks ++ back)) = .ok nodes := by
  obtain ⟨whole, as, t, gap, row, tag, between, ahead⟩ := inside
  obtain ⟨passed, -, moves⟩ := row.moves
  have whole' : source.toList = passed ++ t.rest := moves.rest
  have split : front = passed ++ gap := by
    rw [whole', ahead, ← List.append_assoc] at whole
    exact (List.append_cancel_right whole).symm
  have fits : ∀ b ∈ as.getLast?, Fits b.kind t.rest (gap ++ (blanks ++ back)) := by
    intro b last
    obtain ⟨init, rfl⟩ := List.getLast?_eq_some_iff.mp last
    obtain ⟨t₀, -, final⟩ := row.split
    cases final with
    | cons step rest =>
      cases rest
      have proper : b.kind ≠ .text := fun text => by
        have mode := step.mode.symm.trans tag
        rw [text] at mode
        cases mode
      rw [ahead]
      exact fits_of_settles proper ((settles_blanks blank back).append gap)
  have here := alike_of_blanks tag ahead between blank
  have spliced := parseTemplate_spliced row whole' fits here (Nat.le_refl _)
  have same : passed ++ (gap ++ (blanks ++ back)) = front ++ blanks ++ back := by
    simp [split]
  rw [same] at spliced
  exact spliced.1

/-- Two errors that differ in the line only, which is later by `n` in the second. -/
structure TemplateError.OnlyLater (n : Nat) (e e' : TemplateError) : Prop where
  category : e'.cause.category = e.cause.category
  code : e'.cause.code = e.cause.code
  detail : e'.cause.detail = e.cause.detail
  template : e'.template = e.template
  line : e'.line = e.line.map (· + (n : Int))

theorem Failure.onlyLater_later (n : Nat) (e : TemplateError) :
    ∃ e', (Failure.error e).later n = .error e' ∧ e.OnlyLater n e' :=
  ⟨_, rfl, by simp, by simp, by simp, rfl, rfl⟩

/-- **Comments and blanks are invisible.** A comment put into the text of a source that is accepted
leaves its nodes as they are, unless a brace stands in front of it; so do blanks put between two
tokens of a tag. A comment put into a source that is rejected, in front of the place of the error,
leaves the error as it is but for the line, which is later by the newlines in the comment. -/
theorem comments_and_blanks_invisible (source : String) :
    (∀ nodes, parseTemplate source = .ok nodes →
      (∀ front back body, InText source front back → front.getLast? ≠ some '\x7b' →
        NeverCloses body →
          parseTemplate (String.ofList (front ++ commented body ++ back)) = .ok nodes) ∧
      ∀ front back blanks, InTag source front back → (∀ c ∈ blanks, Text.isBlank c = true) →
        parseTemplate (String.ofList (front ++ blanks ++ back)) = .ok nodes) ∧
    ∀ e, parseTemplate source = .error (.error e) → ∃ late, errorPlace? source = some late ∧
      ∀ front back body, InText source front back → front.getLast? ≠ some '\x7b' →
        NeverCloses body → front.length ≤ late →
          ∃ e', parseTemplate (String.ofList (front ++ commented body ++ back)) =
            .error (.error e') ∧ e.OnlyLater (newlines body) e' := by
  refine ⟨fun nodes accepted => ⟨fun front back body inside seam never => ?_,
    fun front back blanks inside blank => ?_⟩, fun e rejected => ?_⟩
  · exact (parseTemplate_commented inside seam never).1 nodes accepted
  · exact parseTemplate_blanks inside blank nodes accepted
  · obtain ⟨late, here⟩ := exists_errorPlace rejected
    refine ⟨late, here, fun front back body inside seam never before => ?_⟩
    rw [(parseTemplate_commented inside seam never).2 _ rejected late here before]
    obtain ⟨e', later, only⟩ := Failure.onlyLater_later (newlines body) e
    exact ⟨e', congrArg Except.error later, only⟩

/-- A comment behind the text of a greeting, a line broken in its output, and a comment in front of
a tag that is not closed. -/
theorem comments_and_blanks_invisible_greeting :
    parseTemplate "a\x7b\x7b x \x7d\x7d" = .ok [.text "a", .output (.path "x")] ∧
      parseTemplate "a\x7b#\n#\x7d\x7b\x7b x \x7d\x7d" = .ok [.text "a", .output (.path "x")] ∧
      parseTemplate "a\x7b\x7b\n x \x7d\x7d" = .ok [.text "a", .output (.path "x")] ∧
      parseTemplate "a\x7b% if" = .error (.error ⟨.unclosedTag, some 1, none⟩) ∧
      ∃ e, parseTemplate "a\x7b#\n#\x7d\x7b% if" = .error (.error e) ∧
        (TemplateError.mk .unclosedTag (some 1) none).OnlyLater 1 e := by
  have accepted : parseTemplate "a\x7b\x7b x \x7d\x7d" = .ok [.text "a", .output (.path "x")] := by
    decide +kernel
  have rejected : parseTemplate "a\x7b% if" = .error (.error ⟨.unclosedTag, some 1, none⟩) := by
    decide +kernel
  have place : errorPlace? "a\x7b% if" = some 6 := by
    decide +kernel
  have plain : ∀ d, opens 'a' d = false := fun _ => rfl
  have text : InText "a\x7b\x7b x \x7d\x7d" ['a'] "\x7b\x7b x \x7d\x7d".toList :=
    ⟨by decide, [], _, .nil, rfl, .char (fun d _ => plain d) .here⟩
  have tag : InTag "a\x7b\x7b x \x7d\x7d" "a\x7b\x7b".toList " x \x7d\x7d".toList :=
    ⟨by decide, [⟨.text, "a"⟩, ⟨.variableStart, "\x7b\x7b"⟩], _, [],
      .cons ⟨by decide, _, rfl⟩ (.cons ⟨by decide, _, rfl⟩ .nil), rfl, List.forall_mem_nil _,
      by decide⟩
  have text' : InText "a\x7b% if" ['a'] "\x7b% if".toList :=
    ⟨by decide, [], _, .nil, rfl, .char (fun d _ => plain d) .here⟩
  have never : NeverCloses ['\n'] := by decide
  have greeting := (comments_and_blanks_invisible "a\x7b\x7b x \x7d\x7d").1 _ accepted
  obtain ⟨late, here, unclosed⟩ := (comments_and_blanks_invisible "a\x7b% if").2 _ rejected
  obtain rfl : 6 = late := Option.some.inj (place.symm.trans here)
  have commented := greeting.1 _ _ _ text (by decide) never
  have broken := greeting.2 _ _ ['\n'] tag (List.forall_mem_singleton.mpr rfl)
  exact ⟨accepted, commented, broken, rejected, unclosed _ _ _ text' (by decide) never (by decide)⟩

end Stencil
