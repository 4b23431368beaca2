/-
# Branches that no template reaches

A merge has a branch for a block without versions and one for a version that is
not there, and rendering has one for an include and one for an operator without
a meaning. None of them is ever reached for templates with sources: what is
merged is closed, all its conditions come from sources, and a merge fails for
other reasons. So no failure is over an operation that is not supported, unless a
function or a filter fails so.

The templates may be loaded in any order, by loaders that change between the
loads.

Key definitions: `Failure.IsUnsupported`, `Session.Built`.
Key theorems: `Renderer.Mishap.excused`, `Session.Built.of_answer`, `Engine.built_render`,
`Engine.unreachable`.
-/
import Stencil.Proofs.Blame
import Stencil.Proofs.Failures
import Stencil.Proofs.Grammar
import Stencil.Engine

namespace Stencil

/-- A failure over an operation that is not supported. -/
def Failure.IsUnsupported : Failure → Prop
  | .error e => e.cause.code = .unsupportedOp
  | .fault _ => False

namespace Renderer

/-- If a failure is over an operation that is not supported, a function or a filter fails so. -/
def Excused (r : Renderer) (failure : Failure) : Prop :=
  failure.IsUnsupported → r.Raises failure

/-- Nodes that a merge leaves have no such operation, if all operators are known. -/
theorem Mishap.excused {r : Renderer} {failure : Failure}
    (h : r.Mishap (Merging.Plain Condition.Supported) failure) : r.Excused failure := by
  intro unsupported
  cases h with
  | evaluation _ _ supported => exact absurd unsupported supported
  | operator there asked compares unknown =>
    have known := there.asks _ asked _ _ compares
    rw [unknown] at known
    cases known
  -- no include is plain
  | inclusion there => exact nomatch there.plain
  | fault _ => exact unsupported.elim
  | raised raises => exact raises

end Renderer

namespace Session

/-- A session after some loads, each by a loader of its own. -/
inductive Built : Session → Prop
  | fresh : Built .fresh
  | load {s} (earlier : Built s) (loader : Loader) (name : String) :
    Built (Session.load loader name s).2

theorem fetch_supported {loader : Loader} {name : String} {t : Template}
    (h : fetch loader name = .ok t) : t.Supported := by
  unfold fetch at h
  cases hl : loader name with
  | error e =>
    rw [hl] at h
    cases h
  | ok source =>
    rw [hl] at h
    exact Template.compile_supported h

/-- What is so of all that loaders give is so of all that a session holds. -/
theorem Built.of_fetch {P : String → Template → Prop}
    (loaded : ∀ loader name t, fetch loader name = .ok t → P name t) {s : Session} (h : s.Built) :
    ∀ name t, Table.find? name s.cache = some t → P name t := by
  induction h with
  | fresh => exact fun _ _ found => nomatch found
  | @load s _ loader name ih =>
    intro other t found
    cases kept : Table.find? name s.cache with
    | some _ =>
      rw [load_of_find kept] at found
      exact ih other t found
    | none =>
      rw [load_of_find_none kept] at found
      cases fetched : fetch loader name with
      | error _ =>
        rw [fetched] at found
        exact ih other t found
      | ok u =>
        rw [fetched] at found
        by_cases ho : other = name
        · subst ho
          simp only [Table.find?_put, Option.some.injEq] at found
          subst found
          exact loaded loader other u fetched
        · simp only [Table.find?_put_ne ho] at found
          exact ih other t found

/-- What a session answers is held or loaded. -/
theorem Built.of_answer {P : String → Template → Prop}
    (loaded : ∀ loader name t, fetch loader name = .ok t → P name t) {s : Session} (h : s.Built)
    {loader : Loader} {name : String} {t : Template} (ha : s.answer loader name = .ok t) :
    P name t := by
  unfold answer at ha
  split at ha
  · rename_i found
    cases ha
    exact h.of_fetch loaded _ _ found
  · exact loaded loader name t ha

/-- All templates of a session have known operators only. -/
theorem Built.answer_supported {s : Session} (h : s.Built) {loader : Loader} {name : String}
    {t : Template} (ha : s.answer loader name = .ok t) : t.Supported :=
  h.of_answer (fun _ _ _ => fetch_supported) ha

theorem Built.loads {s : Session} (h : s.Built) (loader : Loader) (names : List String) :
    (Session.loads loader names s).Built := by
  induction names generalizing s with
  | nil => exact h
  | cons name _ ih => exact ih (h.load loader name)

theorem name_of_fetch {loader : Loader} {name : String} {t : Template}
    (h : fetch loader name = .ok t) : t.name = name := by
  unfold fetch Template.compile at h
  split at h
  · cases h
  · split at h
    · cases h
      rfl
    · cases h

/-- Every template goes by the name that it was loaded under. -/
theorem Built.name_of_answer {s : Session} (h : s.Built) {loader : Loader} {name : String}
    {t : Template} (ha : s.answer loader name = .ok t) : t.name = name :=
  h.of_answer (fun _ _ _ => name_of_fetch) ha

end Session

/-- A failure of the front end, or of a loader that has no source for a name. -/
inductive Failure.OfLoading : Failure → Prop
  | source {f} (h : f.OfSource) : OfLoading f
  | absent (name : String) : OfLoading (.error ⟨.templateNotFound name, none, some name⟩)

namespace Failure

theorem OfLoading.not_isUnsupported {f : Failure} (h : f.OfLoading) : ¬f.IsUnsupported := by
  cases h with
  | source h =>
    cases f with
    | error e => exact Cause.code_of_isOfSource h
    | fault _ => exact nofun
  | absent _ => exact nofun

theorem OfLoading.not_missing {f : Failure} (h : f.OfLoading) :
    f ≠ .fault .missingBlock ∧ f ≠ .fault .missingVersion := by
  cases h with
  | source h =>
    constructor
    · rintro rfl
      exact h.elim nofun nofun
    · rintro rfl
      exact h.elim nofun nofun
  | absent _ => exact ⟨nofun, nofun⟩

theorem isUnsupported_withTemplate {f : Failure} {name : String} :
    (f.withTemplate name).IsUnsupported ↔ f.IsUnsupported := by
  cases f with
  | error e =>
    show (e.withTemplate name).cause.code = .unsupportedOp ↔ _
    rw [TemplateError.cause_withTemplate]
    exact Iff.rfl
  | fault _ => exact Iff.rfl

end Failure

theorem Session.answer_ofLoading {sources : Table String} {s : Session} {name : String} {f : Failure}
    (h : s.answer (.ofTable sources) name = .error f) : f.OfLoading := by
  unfold answer at h
  split at h
  · cases h
  · unfold fetch Loader.ofTable at h
    split at h
    · rename_i absent
      cases h
      split at absent
      · cases absent
      · cases absent
        exact .absent name
    · exact .source (Template.compile_ofSource h)

namespace Merging

variable {look : String → Except Failure Template}

theorem Reason.not_isUnsupported {f : Failure} (h : Reason look f)
    (loading : ∀ name f, look name = .error f → f.OfLoading) : ¬f.IsUnsupported := by
  cases h with
  | circular _ => exact nofun
  | tooDeep _ _ => exact nofun
  | selfContained _ => exact nofun
  | macroNotDefined _ _ => exact nofun
  | lost found => exact (loading _ _ found).not_isUnsupported

theorem Reason.not_missing {f : Failure} (h : Reason look f)
    (loading : ∀ name f, look name = .error f → f.OfLoading) :
    f ≠ .fault .missingBlock ∧ f ≠ .fault .missingVersion := by
  cases h with
  | circular _ => exact ⟨nofun, nofun⟩
  | tooDeep _ _ => exact ⟨nofun, nofun⟩
  | selfContained _ => exact ⟨nofun, nofun⟩
  | macroNotDefined _ _ => exact ⟨nofun, nofun⟩
  | lost found => exact (loading _ _ found).not_missing

end Merging

namespace Engine

open Merging

variable (e : Engine)

theorem built_mergeTemplate {s : Session} (hs : s.Built) (t : Template) :
    (e.mergeTemplate t s).2.Built := by
  obtain ⟨es, r, run, -⟩ := e.mergeTemplate_gives t s rfl
  rw [run]
  exact hs.loads e.loader _

theorem built_renderTemplate {s : Session} (hs : s.Built) (t : Template) (context : Value) :
    (e.renderTemplate t context s).2.Built := by
  have merged := e.built_mergeTemplate hs t
  unfold renderTemplate Work.within Work.bind
  generalize e.mergeTemplate t s = made at merged ⊢
  rcases made with ⟨f | m, s'⟩
  · exact merged
  · dsimp only
    cases e.renderMerged m context <;> exact merged

/-- Behind the rendering of a template, too, a session is one after some loads. -/
theorem built_render {s : Session} (hs : s.Built) (name : String) (context : Value) :
    (e.render name context s).2.Built := by
  have loaded : (e.load name s).2.Built := hs.load e.loader name
  unfold render Work.bind
  generalize e.load name s = made at loaded ⊢
  rcases made with ⟨f | t, s'⟩
  · exact loaded
  · exact e.built_renderTemplate loaded t context

/-- So it is behind the rendering of a source. -/
theorem built_renderString {s : Session} (hs : s.Built) (source name : String) (context : Value) :
    (e.renderString source name context s).2.Built := by
  unfold renderString
  cases Template.compile name source with
  | ok t => exact e.built_renderTemplate hs t context
  | error f => exact hs

/-- What a template is merged into is closed, whatever names lead to. -/
theorem mergeTemplate_closed {t : Template} {s s' : Session} {m : Merged}
    (h : e.mergeTemplate t s = (.ok m, s')) : m.Closed := by
  obtain ⟨es, merge⟩ := (e.mergeTemplate_eq_iff t s (.ok m)).mp (by rw [h])
  have closed := merge.closed (A := fun _ => True) (fun _ _ _ _ _ _ _ => trivial)
    (fun _ _ _ _ => trivial) m rfl
  exact closed.imp fun ns plain n hn => (plain n hn).plain

theorem mergeTemplate_reason {t : Template} {s s' : Session} {f : Failure}
    (h : e.mergeTemplate t s = (.error f, s')) : Reason (s.answer e.loader) f := by
  obtain ⟨es, merge⟩ := (e.mergeTemplate_eq_iff t s (.error f)).mp (by rw [h])
  exact merge.reason

/-- The text of a template is made without a failure over an operation, unless a function or a
filter fails so. -/
theorem renderTemplate_excused {sources : Table String} (he : e.loader = .ofTable sources)
    {t : Template} (ht : t.Supported) {s : Session} (hs : s.Built) {context : Value} {f : Failure}
    (h : (e.renderTemplate t context s).1 = .error f) (unsupported : f.IsUnsupported) :
    ∃ raised, e.renderer.Raises raised ∧ f = raised.withTemplate t.name := by
  obtain ⟨raised, rfl, failed⟩ := fails_of_renderTemplate h
  have excused : e.renderer.Excused raised := by
    rcases failed with failed | ⟨m, merged, failed⟩
    · have reason := e.mergeTemplate_reason (Prod.ext failed rfl)
      rw [he] at reason
      exact fun other => absurd other
        (reason.not_isUnsupported fun _ _ => Session.answer_ofLoading)
    · obtain ⟨es, merge⟩ := (e.mergeTemplate_eq_iff t s (.ok m)).mp merged
      have plain := merge.closed (fun _ _ => hs.answer_supported) ht m rfl
      exact (Renderer.mishap_of_render plain.macros plain.nodes failed).excused
  exact ⟨raised, excused (Failure.isUnsupported_withTemplate.mp unsupported), rfl⟩

/-- The template with a name is rendered without such a failure, unless a function or a filter fails
so. -/
theorem render_excused {sources : Table String} (he : e.loader = .ofTable sources) {s : Session}
    (hs : s.Built) {name : String} {context : Value} {f : Failure}
    (h : (e.render name context s).1 = .error f) (unsupported : f.IsUnsupported) :
    ∃ raised template, e.renderer.Raises raised ∧ f = raised.withTemplate template := by
  rcases fails_of_load h with lost | ⟨t, found, failed⟩
  · rw [he] at lost
    exact absurd unsupported (Session.answer_ofLoading lost).not_isUnsupported
  · obtain ⟨raised, raises, made⟩ := e.renderTemplate_excused he (hs.answer_supported found)
      (hs.load e.loader name) failed unsupported
    exact ⟨raised, t.name, raises, made⟩

/-- A source is rendered without such a failure, unless a function or a filter fails so. -/
theorem renderString_excused {sources : Table String} (he : e.loader = .ofTable sources)
    {s : Session} (hs : s.Built) {source name : String} {context : Value} {f : Failure}
    (h : (e.renderString source name context s).1 = .error f) (unsupported : f.IsUnsupported) :
    ∃ raised template, e.renderer.Raises raised ∧ f = raised.withTemplate template := by
  rcases fails_of_renderString h with refused | ⟨t, compiled, failed⟩
  · have loading : f.OfLoading := .source (Template.compile_ofSource refused)
    exact absurd unsupported loading.not_isUnsupported
  · obtain ⟨raised, raises, made⟩ := e.renderTemplate_excused he
      (Template.compile_supported compiled) hs failed unsupported
    exact ⟨raised, t.name, raises, made⟩

/-- **What no template reaches.** For an engine with sources, functions, filters and limits of
whatever kind, and templates loaded before by whatever loaders: what a template is merged into is
closed; no merge looks for a block or for a version of a block that is not there; and if a
rendering fails over an operation that is not supported, then because a function or a filter
fails so. -/
theorem unreachable (sources : Table String) (functions : Registry) (filters : Table Filter)
    (limits : Limits) {s : Session} (hs : s.Built) :
    let e : Engine := ⟨.ofTable sources, functions, filters, limits⟩
    (∀ t m s', e.mergeTemplate t s = (.ok m, s') → m.Closed) ∧
    (∀ t f s', e.mergeTemplate t s = (.error f, s') →
      f ≠ .fault .missingBlock ∧ f ≠ .fault .missingVersion) ∧
    (∀ name context f, (e.render name context s).1 = .error f → f.IsUnsupported →
      ∃ raised template, e.renderer.Raises raised ∧ f = raised.withTemplate template) ∧
    (∀ source name context f, (e.renderString source name context s).1 = .error f →
      f.IsUnsupported →
        ∃ raised template, e.renderer.Raises raised ∧ f = raised.withTemplate template) := by
  intro e
  refine ⟨fun t m s' => e.mergeTemplate_closed, fun t f s' h => ?_, fun name context f => ?_,
    fun source name context f => ?_⟩
  · exact (e.mergeTemplate_reason h).not_missing fun _ _ => Session.answer_ofLoading
  · exact e.render_excused rfl hs
  · exact e.renderString_excused rfl hs

/-- Where there are no functions and no filters, no page fails over an operation. -/
theorem unreachable_bare :
    let sources : Table String :=
      [("base", "\x7b% block body %\x7d\x7b% endblock %\x7d"),
        ("page", "\x7b% extends \"base\" %\x7d" ++
          "\x7b% block body %\x7d\x7b% include \"note\" %\x7d\x7b% endblock %\x7d"),
        ("note", "\x7b% if kind == \"note\" %\x7d!\x7b% endif %\x7d")]
    let e : Engine := ⟨.ofTable sources, [], [], {}⟩
    ∀ context f, (e.render "page" context .fresh).1 = .error f → ¬f.IsUnsupported := by
  intro sources e context f h hf
  obtain ⟨raised, template, raises, -⟩ :=
    (unreachable sources [] [] {} .fresh).2.2.1 "page" context f h hf
  cases raises with
  | function registered found _ =>
    cases registered
    cases found
  | filter found _ => cases found

end Engine

end Stencil
