/-
# What a check tells

A check of a template whose chain ends succeeds just if the template can be merged.
After that the template is rendered for any context without asking the loader
for anything; what can still go wrong is in the evaluation, in no source and in
no load, unless a function or a filter makes it so. A check that fails with an
error of a template tells that the template is rendered for no context.

Key definitions: `CommandLine.EndsWithin`, `Category.IsStatic`, `CommandLine.Checked`.
Key theorems: `CommandLine.check_of_root`, `CommandLine.check_of_break`,
`CommandLine.check_sound_and_complete`.
-/
import Mathlib.Data.String.Basic
import Stencil.Proofs.Failures
import Stencil.Proofs.Keeping
import Stencil.Proofs.Walk

namespace Stencil

/-! ### Sorted names -/

theorem nodup_eraseDups (names : List String) : names.eraseDups.Nodup := by
  generalize few : names.length = n
  induction n using Nat.strongRecOn generalizing names with
  | ind n ih =>
    cases names with
    | nil => exact List.nodup_nil
    | cons name names =>
      rw [List.eraseDups_cons]
      have fewer : (names.filter fun other => !other == name).length < n := by
        rw [← few]
        exact Nat.lt_succ_of_le (List.length_filter_le _ names)
      refine List.nodup_cons.mpr ⟨fun again => ?_, ih _ fewer _ rfl⟩
      simpa using (List.mem_filter.mp (List.mem_eraseDups.mp again)).2

theorem mem_sortedSet {name : String} {names : List String} :
    name ∈ sortedSet names ↔ name ∈ names :=
  List.mem_mergeSort.trans List.mem_eraseDups

/-- Each name comes after all smaller ones. -/
theorem sorted_sortedSet (names : List String) : (sortedSet names).Pairwise (· < ·) := by
  have ascending : (sortedSet names).Pairwise fun a b => decide (a ≤ b) = true :=
    List.pairwise_mergeSort (fun a b c => by simpa using le_trans) (fun a b => by
      simpa using le_total a b) _
  have distinct : (sortedSet names).Nodup :=
    (List.mergeSort_perm _ _).nodup_iff.mpr (nodup_eraseDups names)
  exact (ascending.and distinct).imp fun ⟨le, ne⟩ => lt_of_le_of_ne (of_decide_eq_true le) ne

/-! ### Chains that break -/

namespace Merging

open Ancestry

variable {look : String → Except Failure Template} {limit : Int} {t : Template}
  {us : List Template} {name : String} {f : Failure}

/-- A chain that ends at a name without a template is refused, for this reason or with an error. -/
theorem Climbs.fails_of_lost {before : List String} {leaf : String} {chain : List Template}
    {es : List Event} {r : Except Failure (List Template)}
    (h : Climbs look limit before leaf chain t es r) (up : Ascends look t us (some (name, f))) :
    ∃ g, r = .error g ∧ (g = f ∨ ∃ e, g = .error e) := by
  induction h generalizing us with
  | circular _ => exact ⟨_, rfl, .inr ⟨_, rfl⟩⟩
  | tooDeep _ _ => exact ⟨_, rfl, .inr ⟨_, rfl⟩⟩
  | root _ _ last =>
    cases up with
    | lost next _ => cases last.symm.trans next
    | parent next _ _ => cases last.symm.trans next
  | lost _ _ next missing =>
    cases up with
    | lost next' missing' =>
      cases next.symm.trans next'
      cases missing.symm.trans missing'
      exact ⟨_, rfl, .inl rfl⟩
    | parent next' found _ =>
      cases next.symm.trans next'
      cases missing.symm.trans found
  | parent _ _ next found _ ih =>
    obtain ⟨_, -, rest⟩ := up.above ⟨_, next, found⟩
    exact ih rest

/-- Its leaf is not merged. -/
theorem Merges.fails_of_lost {before : List String} {es : List Event} {r : Except Failure Merged}
    (h : Merges look limit before t es r) (up : Ascends look t us (some (name, f))) :
    ∃ g, r = .error g ∧ (g = f ∨ ∃ e, g = .error e) := by
  cases h with
  | refused climb =>
    obtain ⟨g, ⟨⟩, why⟩ := climb.fails_of_lost up
    exact ⟨_, rfl, why⟩
  | macrosFail climb _ => cases (climb.fails_of_lost up).choose_spec.1
  | expands climb _ _ => cases (climb.fails_of_lost up).choose_spec.1

end Merging

namespace Engine

open Ancestry Merging

variable {e : Engine} {s s' : Session} {name : String} {t : Template} {f : Failure}

/-- A template above which a name without one comes is not merged. -/
theorem merge_of_break {us : List Template} {other : String}
    (found : s.answer e.loader name = .ok t)
    (up : Ascends (s.answer e.loader) t us (some (other, f))) :
    ∃ g, (e.merge name s).1 = .error g ∧ (g = f ∨ ∃ error, g = .error error) := by
  obtain ⟨es, r, run, reaches⟩ := e.merge_gives name s rfl
  rw [run]
  cases reaches with
  | lost missing => cases found.symm.trans missing
  | merged found' merge =>
    cases found.symm.trans found'
    exact merge.fails_of_lost up

/-- **What cannot be merged is rendered for no context.** -/
theorem render_of_unmerged {error : TemplateError}
    (unmerged : (e.merge name s).1 = .error (.error error)) (context : Value) :
    ∃ error', (e.render name context s).1 = .error (.error error') := by
  cases answer : s.answer e.loader name with
  | error f =>
    rw [merge_of_lost answer] at unmerged
    cases unmerged
    exact ⟨error, render_of_lost answer context⟩
  | ok t =>
    rw [render_of_found answer, unmerged]
    exact ⟨_, rfl⟩

/-- Where the merge succeeds, a rendering fails as its nodes do. -/
theorem renderMerged_of_render {m : Merged} {context : Value} (merged : (e.merge name s).1 = .ok m)
    (h : (e.render name context s).1 = .error f) :
    ∃ raised template, e.renderMerged m context = .error raised ∧
      f = raised.withTemplate template := by
  rcases fails_of_load h with lost | ⟨t, found, failed⟩
  · rw [merge_of_lost lost] at merged
    cases merged
  · rw [merge_of_found found] at merged
    obtain ⟨raised, rfl, failed | ⟨m', merged', failed⟩⟩ := fails_of_renderTemplate failed
    · cases merged.symm.trans failed
    · cases merged.symm.trans merged'
      exact ⟨raised, t.name, failed, rfl⟩

/-- **What has been merged fails in its evaluation only**, or because a function or filter does. -/
theorem runtime_of_render {m : Merged} {context : Value} {error : TemplateError}
    (merged : (e.merge name s).1 = .ok m)
    (h : (e.render name context s).1 = .error (.error error)) :
    error.cause.category.within .evaluation = true ∨
      ∃ raised, e.renderer.Raises (.error raised) ∧ raised.cause = error.cause := by
  obtain ⟨raised, template, failed, attributed⟩ := renderMerged_of_render merged h
  cases Renderer.origin_of_render failed with
  | evaluation runtime _ =>
    cases attributed
    exact .inl (by rwa [TemplateError.cause_withTemplate])
  | fault _ => cases attributed
  | raised raises =>
    cases raised with
    | fault _ => cases attributed
    | error origin =>
      cases attributed
      exact .inr ⟨origin, raises, (TemplateError.cause_withTemplate _ _).symm⟩

end Engine

/-! ### Checks -/

namespace Category

/-- Errors of this category are found when a source is read or a template is loaded. -/
def IsStatic (c : Category) : Prop :=
  c.within .lexical = true ∨ c.within .grammatical = true ∨ c.within .loading = true

theorem not_isStatic_of_evaluation {c : Category} (h : c.within .evaluation = true) :
    ¬c.IsStatic := by
  unfold IsStatic
  revert h
  cases c <;> decide

end Category

namespace CommandLine

open Ancestry

/-- If a name leads to a template, then the way up from it ends, after so many steps at most. -/
def EndsWithin (look : String → Except Failure Template) (n : Nat) (name : String) : Prop :=
  ∀ t, look name = .ok t → ∃ us lost, Ascends look t us lost ∧ us.length + lost.toList.length ≤ n

variable {e : Engine} {n : Nat} {name : String} {s : Session} {t : Template} {us : List Template}

/-- Only an error of a template stops a request as one. -/
theorem Stop.ofFailure_eq_template {f : Failure} {error : TemplateError}
    (h : Stop.ofFailure f = .complaint (.template error)) : f = .error error := by
  unfold Stop.ofFailure at h
  split at h
  · cases h
    rfl
  · split at h <;> cases h

/-- A check of a template that has a root merges it after the walk. -/
theorem check_of_root (found : s.answer e.loader name = .ok t)
    (up : Ascends (s.answer e.loader) t us none) (enough : us.length ≤ n + 1) :
    check e n name s =
      match e.merge name
        (Session.loads e.loader (name :: (t :: us).filterMap Template.parent) s) with
      | (.ok _, s') => (.ok (.ofChain name (t :: us) us), s')
      | (.error f, s') => (.error (.ofFailure f), s') := by
  rw [check_of_found found]
  have same : (Session.loads e.loader [name] s).answer e.loader = s.answer e.loader :=
    Session.answer_loads e.loader [name] s
  rw [extendsChain_of_ascends (same ▸ up) (by simpa using enough)]
  rfl

/-- A check of a template above which a name without one comes does not get beyond the walk. -/
theorem check_of_break {other : String} {f : Failure} (found : s.answer e.loader name = .ok t)
    (up : Ascends (s.answer e.loader) t us (some (other, f))) (enough : us.length + 1 ≤ n + 1) :
    (check e n name s).1 = .error (.ofFailure f) := by
  rw [check_of_found found]
  have same : (Session.loads e.loader [name] s).answer e.loader = s.answer e.loader :=
    Session.answer_loads e.loader [name] s
  rw [extendsChain_of_ascends (same ▸ up) (by simpa using enough)]
  rfl

/-- What a check of a template tells that succeeds, of its engine, the session before and the
session after; what can fail is the same in every session in which names lead to the same. -/
structure Checked (e : Engine) (s s' : Session) (name : String) (summary : Summary) : Prop where
  same : s'.answer e.loader = s.answer e.loader
  /-- Rendering asks the loader for nothing more. -/
  quiet : ∀ context, (e.render name context s').2 = s'
  /-- What can fail is the evaluation, or a function or a filter. -/
  runtime : ∀ s₂, s₂.answer e.loader = s.answer e.loader → ∀ context error,
    (e.render name context s₂).1 = .error (.error error) →
      error.cause.category.within .evaluation = true ∨
        ∃ raised, e.renderer.Raises (.error raised) ∧ raised.cause = error.cause
  /-- No source and no load fails, if functions and filters do not raise such errors. -/
  dynamic : (∀ raised, e.renderer.Raises (.error raised) → ¬raised.cause.category.IsStatic) →
    ∀ s₂, s₂.answer e.loader = s.answer e.loader → ∀ context error,
      (e.render name context s₂).1 = .error (.error error) → ¬error.cause.category.IsStatic
  /-- The summary is that of the template with the templates above it, up to the root. -/
  summary : ∃ t us, s.answer e.loader name = .ok t ∧ Ascends (s.answer e.loader) t us none ∧
    summary.template = name ∧ summary.chain = us.map Template.name ∧
    summary.blocks.Pairwise (· < ·) ∧
    (∀ block, block ∈ summary.blocks ↔ ∃ u ∈ t :: us, block ∈ Table.names u.blocks) ∧
    summary.macros.Pairwise (· < ·) ∧
    ∀ m, m ∈ summary.macros ↔ ∃ u ∈ t :: us, m ∈ Table.names u.macros

/-- A merge that a check ends with makes all of this so. -/
theorem checked_of_merge {m : Merged} {s₁ s' : Session} (found : s.answer e.loader name = .ok t)
    (up : Ascends (s.answer e.loader) t us none) (before : s₁.answer e.loader = s.answer e.loader)
    (merged : e.merge name s₁ = (.ok m, s')) :
    Checked e s s' name (.ofChain name (t :: us) us) := by
  have after : s'.answer e.loader = s.answer e.loader := by
    obtain ⟨es, r, run, -⟩ := e.merge_gives name s₁ rfl
    obtain ⟨-, rfl⟩ := Prod.mk.inj (run.symm.trans merged)
    exact (Session.answer_loads e.loader _ s₁).trans before
  have runtime : ∀ s₂, s₂.answer e.loader = s.answer e.loader → ∀ context error,
      (e.render name context s₂).1 = .error (.error error) →
        error.cause.category.within .evaluation = true ∨
          ∃ raised, e.renderer.Raises (.error raised) ∧ raised.cause = error.cause := by
    intro s₂ same context error failed
    have again : (e.merge name s₂).1 = .ok m := by
      rw [e.merge_congr (same.trans before.symm), merged]
    exact Engine.runtime_of_render again failed
  refine ⟨after, e.render_after_merge merged, runtime, fun others s₂ same context error failed => ?_,
    t, us, found, up, rfl, rfl, sorted_sortedSet _, fun _ => mem_sortedSet.trans List.mem_flatMap,
    sorted_sortedSet _, fun _ => mem_sortedSet.trans List.mem_flatMap⟩
  rcases runtime s₂ same context error failed with evaluation | ⟨raised, raises, cause⟩
  · exact Category.not_isStatic_of_evaluation evaluation
  · rw [← cause]
    exact others raised raises

/-- Where the chain ends, a check comes to a merge that succeeds, or both fail; and if the check
fails with an error of a template, so does the merge. -/
theorem check_cases (finite : EndsWithin (s.answer e.loader) (n + 1) name) :
    (∃ summary s' m, check e n name s = (.ok summary, s') ∧ (e.merge name s).1 = .ok m ∧
      Checked e s s' name summary) ∨
    ∃ f g, (check e n name s).1 = .error (.ofFailure f) ∧ (e.merge name s).1 = .error g ∧
      (g = f ∨ ∃ error, g = .error error) := by
  cases answer : s.answer e.loader name with
  | error f =>
    have stopped := congrArg Prod.fst (check_of_lost answer n)
    exact .inr ⟨f, f, stopped, Engine.merge_of_lost answer, .inl rfl⟩
  | ok t =>
    obtain ⟨us, lost, up, steps⟩ := finite t answer
    cases lost with
    | some lost =>
      obtain ⟨other, f⟩ := lost
      obtain ⟨g, unmerged, why⟩ := Engine.merge_of_break answer up
      exact .inr ⟨f, g, check_of_break answer up steps, unmerged, why⟩
    | none =>
      have result := check_of_root answer up steps
      generalize loaded : name :: (t :: us).filterMap Template.parent = names at result
      have same : (Session.loads e.loader names s).answer e.loader = s.answer e.loader :=
        Session.answer_loads e.loader names s
      rcases merged : e.merge name (Session.loads e.loader names s) with ⟨f | m, s'⟩
      · have stopped : (check e n name s).1 = .error (.ofFailure f) := by rw [result, merged]
        refine .inr ⟨f, f, stopped, ?_, .inl rfl⟩
        rw [← e.merge_congr same, merged]
      · have told : check e n name s = (.ok (.ofChain name (t :: us) us), s') := by
          rw [result, merged]
        have merges : (e.merge name s).1 = .ok m := by rw [← e.merge_congr same, merged]
        exact .inl ⟨_, s', m, told, merges, checked_of_merge answer up same merged⟩

/-- **A check is sound and complete.** Where the chain above a template ends, a check succeeds just
if the template can be merged. If it succeeds, what it tells holds of every rendering; if it fails
with an error of a template, every rendering does. -/
theorem check_sound_and_complete (e : Engine) (n : Nat) (name : String) (s : Session)
    (finite : EndsWithin (s.answer e.loader) (n + 1) name) :
    ((∃ summary, (check e n name s).1 = .ok summary) ↔ ∃ m, (e.merge name s).1 = .ok m) ∧
    (∀ summary, (check e n name s).1 = .ok summary →
      Checked e s (check e n name s).2 name summary) ∧
    ∀ error, (check e n name s).1 = .error (.complaint (.template error)) →
      ∀ s₂, s₂.answer e.loader = s.answer e.loader →
        ∀ context, ∃ error', (e.render name context s₂).1 = .error (.error error') := by
  rcases check_cases finite with ⟨summary, s', m, result, merged, checked⟩ |
    ⟨f, g, stopped, unmerged, why⟩
  · rw [result]
    refine ⟨⟨fun _ => ⟨m, merged⟩, fun _ => ⟨summary, rfl⟩⟩, ?_, fun _ h => nomatch h⟩
    rintro _ ⟨⟩
    exact checked
  · rw [stopped, unmerged]
    refine ⟨⟨nofun, nofun⟩, nofun, fun error complaint s₂ same context => ?_⟩
    obtain rfl := Stop.ofFailure_eq_template (Except.error.inj complaint)
    have failed : ∃ error', g = .error error' := why.elim (fun same => ⟨error, same⟩) id
    obtain ⟨error', rfl⟩ := failed
    exact Engine.render_of_unmerged ((e.merge_congr same name).trans unmerged) context

/-- A template that extends another one, where both have been loaded. -/
theorem check_sound_and_complete_leaf :
    let e : Engine := ⟨.ofTable [], [], [], {}⟩
    let s : Session := ⟨[("leaf", .ofNodes "leaf" [.inherit "root"]),
      ("root", .ofNodes "root" [.block "b" [.text "B"]])], []⟩
    EndsWithin (s.answer e.loader) 2 "leaf" ∧
      ∃ summary, (check e 1 "leaf" s).1 = .ok summary ∧
        Checked e s (check e 1 "leaf" s).2 "leaf" summary := by
  intro e s
  have finite : EndsWithin (s.answer e.loader) 2 "leaf" := by
    rintro _ ⟨⟩
    exact ⟨_, none, .parent rfl rfl (.root rfl), by decide⟩
  have merged : (e.merge "leaf" s).1 = .ok ⟨[.block "b" [.text "B"]], []⟩ := by decide +kernel
  obtain ⟨succeeds, tells, -⟩ := check_sound_and_complete e 1 "leaf" s finite
  obtain ⟨summary, told⟩ := succeeds.mpr ⟨_, merged⟩
  exact ⟨finite, summary, told, tells summary told⟩

end CommandLine

end Stencil
