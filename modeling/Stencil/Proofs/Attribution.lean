/-
# Whose error it is

An error that leaves a rendering carries the name of a template. Which one it is
depends on where the error comes from: a source that does not parse has its own
name, and so has one that the loader does not give; where the limit on templates
in progress is reached it is the name of the template whose chain is being loaded;
and all the rest is put down to what was asked for.

Whatever is wrong with a source, or with its loading, has its name as soon as the
template is asked for. Names are attached once, so on the way out of includes and
imports and of the rendering nothing changes about it. What a merge stops at for
other reasons has no name before that, except where the limit is reached.

Key definitions: `Loader.Unnamed`, `Refuses`, `Engine.Unnamed`, `Engine.Attributed`.
Key theorems: `TemplateError.foldl_withTemplate`, `onLine_of_parseTemplate`,
`Engine.attributed_of_renderTemplate`, `Engine.errors_attributed`.
-/
import Stencil.Proofs.Builtins
import Stencil.Proofs.Containment
import Stencil.Proofs.Failures
import Stencil.Proofs.Unreachable

namespace Stencil

/-! ### Names and texts -/

namespace TemplateError

theorem withTemplate_of_unnamed {error : TemplateError} (unnamed : error.template = none)
    (name : String) : error.withTemplate name = ⟨error.cause, error.line, some name⟩ := by
  unfold withTemplate
  rw [unnamed]

theorem withTemplate_of_named {error : TemplateError} {own : String}
    (named : error.template = some own) (name : String) : error.withTemplate name = error := by
  unfold withTemplate
  rw [named]

/-- Of all names that an error is attributed to, the first counts. -/
theorem foldl_withTemplate (error : TemplateError) (names : List String) :
    names.foldl withTemplate error =
      ⟨error.cause, error.line, error.template.or names.head?⟩ := by
  induction names generalizing error with
  | nil => simp
  | cons name names ih =>
    rw [List.foldl_cons, ih, cause_withTemplate, line_withTemplate, template_withTemplate]
    cases error.template <;> rfl

/-- **The text of an error goes by what the error is then**, and the first name stays. -/
theorem message_foldl_withTemplate (error : TemplateError) (names : List String) :
    (names.foldl withTemplate error).message =
      error.cause.code.text ++
        (if error.cause.detail.isEmpty then "" else ": " ++ error.cause.detail) ++
        place (error.template.or names.head?) error.line := by
  rw [foldl_withTemplate]
  rfl

end TemplateError

/-! ### Sources -/

/-- A lexer attributes nothing to a template. -/
theorem Lexer.unnamed_of_next {s : Lexer} {error : TemplateError}
    (h : s.next.1 = .error (.error error)) : error.template = none := by
  obtain ⟨g, ahead⟩ := exists_ahead s.mode s.rest
  rw [next_of_ahead ahead] at h
  cases g with
  | token _ _ _ _ _ => cases h
  | finish _ => cases h
  | stuck skipped failure rest =>
    have same := Except.error.inj h
    generalize s.mode = m at ahead
    generalize s.rest = cs at ahead
    cases ahead with
    | unterminated _ _ =>
      cases same
      rfl
    | stuck _ stuck _ =>
      cases stuck with
      | stray _ => cases same
      | string _ _ =>
        cases same
        rfl

/-- A reader attributes nothing to a template. -/
theorem Parse.Runs.unnamed {α : Type} {p : Parse α} {c : Cursor} {es : List Event}
    {r : Except Halt (α × Cursor)} (h : Runs p c es r) {halt : Halt} (failed : r = .error halt)
    {error : TemplateError} (failure : halt.failure = .error error) : error.template = none := by
  rcases h.cause_of_failure failed with ⟨_, _, placed⟩ | ⟨e, -, broken⟩
  · cases placed.symm.trans failure
    rfl
  · rw [failure] at broken
    cases e with
    | asked s => exact Lexer.unnamed_of_next broken
    | converted _ => cases broken.1
    | exhausted => exact broken.elim

/-- **What is wrong with a source is on a line of it**, and no name is attached yet. -/
theorem onLine_of_parseTemplate {source : String} {error : TemplateError}
    (h : parseTemplate source = .error (.error error)) :
    ∃ line : Nat, error = ⟨error.cause, some line, none⟩ ∧
      (error.cause.category = .lexical ∨ error.cause.category = .grammatical) ∧
      1 ≤ line ∧ line ≤ 1 + Lexer.newlines source.toList := by
  have unnamed : error.template = none := by
    obtain ⟨es, account⟩ := Parse.exists_account source
    obtain ⟨r, run⟩ := account.run
    unfold parseTemplate at h
    rw [run.eq] at h
    cases r with
    | ok made => cases h
    | error halt => exact run.unnamed rfl (Except.error.inj h)
  obtain ⟨syntactic, line, known, inside⟩ := (explained_of_parseTemplate h).contained
  exact ⟨line, by rw [← known, ← unnamed], syntactic, inside⟩

/-- A loader that leaves it to others to attribute its errors. -/
def Loader.Unnamed (loader : Loader) : Prop :=
  ∀ name error, loader name = .error (.error error) → error.template = none

/-- A loader with the failures of loaders does, such as one of a table or of directories. -/
theorem Loader.Unnamed.of_fails {loader : Loader}
    (h : ∀ name, Fails (Failure.OfLoader name) (loader name)) : Loader.Unnamed loader := by
  intro name error failed
  cases h name _ failed <;> rfl

/-- How a loader leads to no template for a name, and the error that tells so. It does not give a
source, or the source does not parse. -/
inductive Refuses (loader : Loader) (name : String) : TemplateError → Prop
  | unloaded {raw : TemplateError} (fails : loader name = .error (.error raw)) :
    Refuses loader name ⟨raw.cause, raw.line, some name⟩
  | unparsed {source : String} {cause : Cause} {line : Nat} (loads : loader name = .ok source)
    (fails : parseTemplate source = .error (.onLine cause line))
    (syntactic : cause.category = .lexical ∨ cause.category = .grammatical)
    (inside : 1 ≤ line ∧ line ≤ 1 + Lexer.newlines source.toList) :
    Refuses loader name ⟨cause, some line, some name⟩

namespace Refuses

variable {loader : Loader} {name : String} {error : TemplateError}

theorem named (h : Refuses loader name error) : error.template = some name := by
  cases h <;> rfl

theorem of_fetch (unnamed : Loader.Unnamed loader)
    (h : Session.fetch loader name = .error (.error error)) : Refuses loader name error := by
  unfold Session.fetch Template.compile at h
  cases given : loader name with
  | error f =>
    rw [given] at h
    cases f with
    | fault _ => cases h
    | error raw =>
      cases h
      rw [TemplateError.withTemplate_of_unnamed (unnamed name raw given)]
      exact .unloaded given
  | ok source =>
    rw [given] at h
    dsimp only at h
    cases parsed : parseTemplate source with
    | ok _ =>
      rw [parsed] at h
      cases h
    | error f =>
      rw [parsed] at h
      cases f with
      | fault _ => cases h
      | error raw =>
        cases h
        obtain ⟨line, same, syntactic, inside⟩ := onLine_of_parseTemplate parsed
        have fails : parseTemplate source = .error (.onLine raw.cause line) :=
          parsed.trans (congrArg (Except.error ∘ Failure.error) same)
        rw [TemplateError.withTemplate_of_unnamed (congrArg TemplateError.template same),
          congrArg TemplateError.line same]
        exact .unparsed given fails syntactic inside

theorem of_answer (unnamed : Loader.Unnamed loader) {s : Session}
    (h : s.answer loader name = .error (.error error)) : Refuses loader name error := by
  unfold Session.answer at h
  split at h
  · cases h
  · exact of_fetch unnamed h

end Refuses

/-! ### Requests -/

namespace Engine

open Merging

/-- The loader, the functions and the filters leave it to the engine to attribute errors. -/
structure Unnamed (e : Engine) : Prop where
  loader : Loader.Unnamed e.loader
  calls : ∀ error, e.renderer.Raises (.error error) → error.template = none

/-- The standard functions and filters do. -/
theorem unnamed_standard (world : Surroundings) {loader : Loader} (unnamed : Loader.Unnamed loader)
    (limits : Limits) : (standard world loader limits).Unnamed := by
  refine ⟨unnamed, fun error raises => ?_⟩
  cases ofCall_of_raises raises
  rfl

/-- Whose an error is when a template is rendered, where names lead to templates: by where it comes
from. -/
inductive Attributed (e : Engine) (look : String → Except Failure Template) (t : Template)
    (context : Value) : TemplateError → Prop
  /-- A name that the merge comes to has no template. -/
  | lost {name error} (trail : Trail look e.limits.nesting [] t (.lost name (.error error)))
    (refuses : Refuses e.loader name error) : Attributed e look t context error
  /-- There is no room for one more template in the chain of a leaf. -/
  | nested {leaf} (trail : Trail look e.limits.nesting [] t (.tooDeep e.limits.nesting leaf)) :
    Attributed e look t context ⟨.templateNesting e.limits.nesting, none, some leaf⟩
  /-- The merge stops for another reason. -/
  | merging {stop cause} (trail : Trail look e.limits.nesting [] t stop)
    (fails : stop.failure = .of cause) (ordinary : cause.isOrdinary = true) :
    Attributed e look t context ⟨cause, none, some t.name⟩
  /-- What the template is merged into fails when it is rendered. -/
  | rendering {es m cause} (merged : Merges look e.limits.nesting [] t es (.ok m))
    (fails : e.renderMerged m context = .error (.of cause)) (ordinary : cause.isOrdinary = true) :
    Attributed e look t context ⟨cause, none, some t.name⟩
  /-- A function or a filter fails when that is rendered. -/
  | raised {es m raw} (merged : Merges look e.limits.nesting [] t es (.ok m))
    (fails : e.renderMerged m context = .error (.error raw))
    (raises : e.renderer.Raises (.error raw)) :
    Attributed e look t context ⟨raw.cause, raw.line, some t.name⟩

variable {e : Engine} {s : Session} {t : Template} {context : Value} {error : TemplateError}

theorem Attributed.named {look : String → Except Failure Template}
    (h : e.Attributed look t context error) : error.template.isSome := by
  cases h with
  | lost _ refuses => rw [refuses.named]; rfl
  | nested _ => rfl
  | merging _ _ _ => rfl
  | rendering _ _ _ => rfl
  | raised _ _ _ => rfl

/-- What a merge stops at is attributed when it leaves the rendering. -/
theorem attributed_of_trail (unnamed : e.Unnamed) {stop : Stop}
    (trail : Trail (s.answer e.loader) e.limits.nesting [] t stop)
    (left : stop.failure.withTemplate t.name = .error error) :
    e.Attributed (s.answer e.loader) t context error := by
  cases stop with
  | circular names =>
    cases left
    exact .merging trail rfl rfl
  | selfContained block =>
    cases left
    exact .merging trail rfl rfl
  | macroNotDefined name template =>
    cases left
    exact .merging trail rfl rfl
  | tooDeep limit leaf =>
    cases left
    cases (show limit = e.limits.nesting from trail.sound)
    exact .nested trail
  | lost name f =>
    cases f with
    | fault _ => cases left
    | error raw =>
      have refuses : Refuses e.loader name raw := .of_answer unnamed.loader trail.sound
      cases left
      rw [TemplateError.withTemplate_of_named refuses.named]
      exact .lost trail refuses

/-- What a merged template fails for is attributed when it leaves the rendering. -/
theorem attributed_of_renderMerged (unnamed : e.Unnamed) {look : String → Except Failure Template}
    {es : List Event} {m : Merged} {raised : Failure}
    (merged : Merges look e.limits.nesting [] t es (.ok m))
    (fails : e.renderMerged m context = .error raised)
    (left : raised.withTemplate t.name = .error error) : e.Attributed look t context error := by
  cases Renderer.origin_of_render fails with
  | evaluation _ ordinary =>
    cases left
    exact .rendering merged fails ordinary
  | fault _ => cases left
  | raised raises =>
    cases raised with
    | fault _ => cases left
    | error raw =>
      cases left
      rw [TemplateError.withTemplate_of_unnamed (unnamed.calls raw raises)]
      exact .raised merged fails raises

/-- **An error that leaves the rendering of a template is attributed.** -/
theorem attributed_of_renderTemplate (unnamed : e.Unnamed)
    (h : (e.renderTemplate t context s).1 = .error (.error error)) :
    e.Attributed (s.answer e.loader) t context error := by
  obtain ⟨raised, left, failed | ⟨m, merged, failed⟩⟩ := fails_of_renderTemplate h
  · obtain ⟨es, merge⟩ := (e.mergeTemplate_eq_iff t s (.error raised)).mp failed
    obtain ⟨stop, trail, rfl⟩ := merge.trail
    exact attributed_of_trail unnamed trail left.symm
  · obtain ⟨es, merge⟩ := (e.mergeTemplate_eq_iff t s (.ok m)).mp merged
    exact attributed_of_renderMerged unnamed merge failed left.symm

/-- An error that leaves a rendering is one of what was asked for, or it is attributed. -/
theorem attributed_of_render (unnamed : e.Unnamed) (built : s.Built) {name : String}
    (h : (e.render name context s).1 = .error (.error error)) :
    Refuses e.loader name error ∨ ∃ t, s.answer e.loader name = .ok t ∧ t.name = name ∧
      e.Attributed (s.answer e.loader) t context error := by
  rcases fails_of_load h with lost | ⟨t, found, failed⟩
  · exact .inl (.of_answer unnamed.loader lost)
  · have attributed := attributed_of_renderTemplate unnamed failed
    rw [show (e.load name s).2.answer e.loader = s.answer e.loader from
      Session.answer_load e.loader name s] at attributed
    exact .inr ⟨t, found, built.name_of_answer found, attributed⟩

theorem attributed_of_renderString (unnamed : e.Unnamed) {source name : String}
    (h : (e.renderString source name context s).1 = .error (.error error)) :
    Refuses (fun _ => .ok source) name error ∨ ∃ t, Template.compile name source = .ok t ∧
      t.name = name ∧ e.Attributed (s.answer e.loader) t context error := by
  have fetched : Session.fetch (fun _ => .ok source) name = Template.compile name source := by
    unfold Session.fetch
    rfl
  rcases fails_of_renderString h with refused | ⟨t, compiled, failed⟩
  · exact .inl (.of_fetch (fun _ _ h => nomatch h) (fetched.trans refused))
  · exact .inr ⟨t, compiled, Session.name_of_fetch (fetched.trans compiled),
      attributed_of_renderTemplate unnamed failed⟩

/-- Such an error carries a name. -/
theorem isSome_of_attributed {loader : Loader} {name : String} {start : Except Failure Template}
    {look : String → Except Failure Template}
    (h : Refuses loader name error ∨ ∃ t, start = .ok t ∧ t.name = name ∧
      e.Attributed look t context error) : error.template.isSome := by
  rcases h with refuses | ⟨t, -, -, attributed⟩
  · rw [refuses.named]
    rfl
  · exact attributed.named

/-- A page that includes a note, which does not parse, and a function that fails. -/
def drafts : Engine :=
  ⟨.ofTable [("page", "\x7b% include \"note\" %\x7d"), ("note", "one\n\x7b\x7b")],
    [("deny", ⟨0, 0, "", fun _ => .error (.of (.raised .calling .invalidArguments "no"))⟩)], [], {}⟩

end Engine

end Stencil
