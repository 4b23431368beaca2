/-
# What a merge leaves behind

A merge that comes upon a name that leads to no template fails. So where one
succeeds, each name that it requested led to a template, and the session has
kept them all: the merge can be done again, and the template can be rendered,
without asking the loader for anything more.

Key definitions: `Merging.Settled`.
Key theorems: `Merging.Reaches.settled`, `Session.loads_again`,
`Engine.render_after_merge`.
-/
import Stencil.Proofs.Nesting
import Stencil.Proofs.Twins

namespace Stencil

namespace Merging

variable {look : String → Except Failure Template} {limit : Int}

/-- Every name that is requested leads to a template. -/
def Settled (look : String → Except Failure Template) (es : List Event) : Prop :=
  ∀ name ∈ requests es, ∃ t, look name = .ok t

namespace Settled

variable {es es' : List Event} {name : String} {t : Template}

theorem nil : Settled look [] :=
  fun _ h => nomatch h

theorem append (h : Settled look es) (h' : Settled look es') : Settled look (es ++ es') := by
  intro name member
  rw [requests_append] at member
  exact (List.mem_append.mp member).elim (h name) (h' name)

theorem found (leads : look name = .ok t) : Settled look [.found name] :=
  List.forall_mem_singleton.mpr ⟨t, leads⟩

/-- In work that goes well. To enter or to be expanded requests nothing. -/
theorem invariant : Invariant look limit fun es stop => stop = none → Settled look es where
  nil _ := nil
  append h h' well := (h rfl).append (h' well)
  found leads _ := found leads
  lost _ := nofun
  enter _ _ _ := nil
  circle _ := nofun
  full _ _ _ := nofun
  expand _ _ := nil
  stop _ _ _ := nofun

end Settled

/-- **A merge that succeeds has found every template that it requested.** -/
theorem Reaches.settled {before : List String} {name : String} {es : List Event} {m : Merged}
    (h : Reaches look limit before name es (.ok m)) (distinct : before.Nodup) :
    Settled look es :=
  h.upholds Settled.invariant distinct rfl

end Merging

namespace Session

variable {loader : Loader} {s : Session} {names : List String}

theorem loads_of_keeps (kept : ∀ name ∈ names, s.keeps name = true) : loads loader names s = s := by
  induction names with
  | nil => rfl
  | cons name names ih =>
    obtain ⟨first, others⟩ := List.forall_mem_cons.mp kept
    rw [loads, load_of_keeps first]
    exact ih others

/-- What is kept stays so, and names that lead to templates are kept once they are loaded. -/
theorem keeps_loads {name : String} (names : List String) : ∀ {s : Session},
    s.keeps name = true ∨ (name ∈ names ∧ ∃ t, s.answer loader name = .ok t) →
      (loads loader names s).keeps name = true := by
  induction names with
  | nil => exact fun h => h.elim id fun h => nomatch h.1
  | cons other names ih =>
    intro s h
    refine ih ?_
    rw [keeps_load, answer_load]
    rcases h with kept | ⟨member, t, found⟩
    · exact .inl (by rw [kept, Bool.true_or])
    · rcases List.mem_cons.mp member with rfl | later
      · exact .inl (by simp [found, Except.isOk, Except.toBool])
      · exact .inr ⟨later, t, found⟩

/-- **Templates that were found are not asked for again.** -/
theorem loads_again (found : ∀ name ∈ names, ∃ t, s.answer loader name = .ok t) :
    loads loader names (loads loader names s) = loads loader names s :=
  loads_of_keeps fun name member => keeps_loads names (.inr ⟨member, found name member⟩)

end Session

namespace Engine

open Merging Session

variable (e : Engine) {s s' : Session} {name : String}

/-- Rendering leaves a session as merging does. -/
theorem render_session (name : String) (context : Value) (s : Session) :
    (e.render name context s).2 = (e.merge name s).2 := by
  unfold render merge Work.bind
  rcases e.load name s with ⟨f | t, s'⟩
  · rfl
  · unfold renderTemplate Work.within Work.bind
    dsimp only
    rcases e.mergeTemplate t s' with ⟨f | m, s''⟩
    · rfl
    · dsimp only
      cases e.renderMerged m context <;> rfl

/-- Where names lead to the same, a merge comes to the same. -/
theorem merge_congr (same : s.answer e.loader = s'.answer e.loader) (name : String) :
    (e.merge name s).1 = (e.merge name s').1 := by
  obtain ⟨r, names, run, run'⟩ := e.merge_alike e.loader name s s' same
  exact (congrArg Prod.fst run).trans (congrArg Prod.fst run').symm

/-- **A template that has been merged is rendered without asking the loader for anything.** -/
theorem render_after_merge {m : Merged} (merged : e.merge name s = (.ok m, s')) (context : Value) :
    (e.render name context s').2 = s' := by
  obtain ⟨es, r, run, reaches⟩ := e.merge_gives name s rfl
  obtain ⟨rfl, rfl⟩ := Prod.mk.inj (run.symm.trans merged)
  obtain ⟨es', r', run', reaches'⟩ :=
    e.merge_gives name (loads e.loader (requests es) s) (answer_loads e.loader (requests es) s)
  obtain ⟨rfl, -⟩ := reaches.det reaches'
  rw [render_session, run']
  exact loads_again (reaches.settled .nil)

end Engine

end Stencil
