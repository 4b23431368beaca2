/-
# Templates in progress

The guard on templates in progress sees every template that was loaded before
the template enters: a name that is in progress already is a circle, and a new
one must be within the limit. Where the guard stops a merge nothing else happens
after it, and a merge fails that way only where the guard stops it, or where a
template could not be loaded and this is how loading it failed.

So while nodes are expanded the names in progress differ from each other and are
within the limit.

Events come about in few ways only: something is loaded or is not, a name enters or
is stopped, a node is expanded, or work ends for a reason of its own. What all of
these keep is so of a whole merge, and what the guard allows is such.

Key definitions: `Merging.Guarded`, `Merging.Invariant`.
Key theorems: `Merging.Merges.upholds`, `Merging.Guarded.invariant`,
`Engine.mergeTemplate_guarded`.
-/
import Stencil.Proofs.Determinism

namespace Stencil.Merging

/-- The failure of a template that is in progress already. -/
def isCircular (f : Failure) (names : List String) : Prop :=
  ∃ line template, f = .error ⟨.circular names, line, template⟩

/-- The failure of more templates than the limit. -/
def isTooDeep (f : Failure) (limit : Int) : Prop :=
  ∃ line template, f = .error ⟨.templateNesting limit, line, template⟩

theorem isCircular_error {e : TemplateError} {names : List String} :
    isCircular (.error e) names ↔ e.cause = .circular names := by
  constructor
  · rintro ⟨_, _, ⟨⟩⟩
    rfl
  · rcases e with ⟨_, line, template⟩
    rintro rfl
    exact ⟨line, template, rfl⟩

theorem isCircular_withTemplate {f : Failure} {name : String} {names : List String} :
    isCircular (f.withTemplate name) names ↔ isCircular f names := by
  cases f with
  | fault _ => exact Iff.rfl
  | error e =>
    show isCircular (.error (e.withTemplate name)) names ↔ _
    rw [isCircular_error, isCircular_error, TemplateError.cause_withTemplate]

/-- The events of work that ended with `stop` if it failed, as the guard on templates in progress
allows them. -/
structure Guarded (look : String → Except Failure Template) (limit : Int) (es : List Event)
    (stop : Option Failure) : Prop where
  distinct : ∀ stack, .expanding stack ∈ es → stack.Nodup
  bounded : ∀ stack, .expanding stack ∈ es → (stack.length : Int) ≤ limit
  /-- A name in progress cannot enter. -/
  circular : ∀ stack name, .entering stack name ∈ es → name ∈ stack →
    stop = some (.of (.circular (stack ++ [name])))
  /-- A new name cannot enter beyond the limit. -/
  tooDeep : ∀ stack name, .entering stack name ∈ es → name ∉ stack →
    limit < stack.length + 1 →
    ∃ leaf, stop = some (.error ⟨.templateNesting limit, none, some leaf⟩)
  /-- A template that cannot be loaded is the end. -/
  lost : ∀ name, .lost name ∈ es → ∃ f, look name = .error f ∧ stop = some f
  of_circular : ∀ f names, stop = some f → isCircular f names →
    (∃ stack name, es.getLast? = some (.entering stack name) ∧ name ∈ stack ∧
      names = stack ++ [name]) ∨
    ∃ name, es.getLast? = some (.lost name) ∧ look name = .error f
  of_tooDeep : ∀ f bound, stop = some f → isTooDeep f bound →
    (∃ stack name, es.getLast? = some (.entering stack name) ∧ name ∉ stack ∧
      limit < stack.length + 1 ∧ bound = limit) ∨
    ∃ name, es.getLast? = some (.lost name) ∧ look name = .error f

section

variable {look : String → Except Failure Template} {limit : Int}

namespace Guarded

variable {es es' : List Event} {stop : Option Failure}

theorem nil : Guarded look limit [] none where
  distinct _ he := nomatch he
  bounded _ he := nomatch he
  circular _ _ he := nomatch he
  tooDeep _ _ he := nomatch he
  lost _ he := nomatch he
  of_circular _ _ hs := nomatch hs
  of_tooDeep _ _ hs := nomatch hs

/-- Work ends with a failure that has nothing to do with the guard. -/
theorem stop_of {f : Failure} (h : Guarded look limit es none) (hc : ∀ names, ¬isCircular f names)
    (ht : ∀ bound, ¬isTooDeep f bound) : Guarded look limit es (some f) where
  distinct := h.distinct
  bounded := h.bounded
  circular stack name he known := nomatch h.circular stack name he known
  tooDeep stack name he new full := nomatch h.tooDeep stack name he new full
  lost name he := by obtain ⟨_, _, ⟨⟩⟩ := h.lost name he
  of_circular := by
    rintro _ names ⟨⟩ hf
    exact absurd hf (hc names)
  of_tooDeep := by
    rintro _ bound ⟨⟩ hf
    exact absurd hf (ht bound)

/-- A template cannot be loaded. -/
theorem fail {name : String} {f : Failure} (found : look name = .error f) :
    Guarded look limit [.lost name] (some f) where
  distinct := by simp
  bounded := by simp
  circular := by simp
  tooDeep := by simp
  lost := by
    intro _ he
    cases List.mem_singleton.mp he
    exact ⟨f, found, rfl⟩
  of_circular := by
    rintro _ names ⟨⟩ _
    exact .inr ⟨name, rfl, found⟩
  of_tooDeep := by
    rintro _ bound ⟨⟩ _
    exact .inr ⟨name, rfl, found⟩

/-- One piece of work after another that went well. -/
theorem append (h : Guarded look limit es none) (h' : Guarded look limit es' stop) :
    Guarded look limit (es ++ es') stop where
  distinct stack he := (List.mem_append.mp he).elim (h.distinct stack) (h'.distinct stack)
  bounded stack he := (List.mem_append.mp he).elim (h.bounded stack) (h'.bounded stack)
  circular stack name he known := by
    rcases List.mem_append.mp he with he | he
    · cases h.circular stack name he known
    · exact h'.circular stack name he known
  tooDeep stack name he new full := by
    rcases List.mem_append.mp he with he | he
    · cases h.tooDeep stack name he new full
      contradiction
    · exact h'.tooDeep stack name he new full
  lost name he := by
    rcases List.mem_append.mp he with he | he
    · obtain ⟨_, _, ⟨⟩⟩ := h.lost name he
    · exact h'.lost name he
  of_circular f names hs hf := by
    rcases h'.of_circular f names hs hf with ⟨stack, name, last, known⟩ | ⟨name, last, found⟩
    · exact .inl ⟨stack, name, by simp [List.getLast?_append, last], known⟩
    · exact .inr ⟨name, by simp [List.getLast?_append, last], found⟩
  of_tooDeep f bound hs hf := by
    rcases h'.of_tooDeep f bound hs hf with ⟨stack, name, last, new⟩ | ⟨name, last, found⟩
    · exact .inl ⟨stack, name, by simp [List.getLast?_append, last], new⟩
    · exact .inr ⟨name, by simp [List.getLast?_append, last], found⟩

/-- A template is loaded. -/
theorem load (name : String) : Guarded look limit [.found name] none where
  distinct := by simp
  bounded := by simp
  circular := by simp
  tooDeep := by simp
  lost := by simp
  of_circular _ _ hs := nomatch hs
  of_tooDeep _ _ hs := nomatch hs

/-- A name enters that is new and within the limit. -/
theorem enter {stack : List String} {name : String} (new : name ∉ stack)
    (fits : (stack.length : Int) + 1 ≤ limit) : Guarded look limit [.entering stack name] none where
  distinct := by simp
  bounded := by simp
  circular := by
    intro _ _ he known
    cases List.mem_singleton.mp he
    contradiction
  tooDeep := by
    intro _ _ he _ full
    cases List.mem_singleton.mp he
    omega
  lost := by simp
  of_circular _ _ hs := nomatch hs
  of_tooDeep _ _ hs := nomatch hs

/-- A node is expanded with names in progress that differ and are within the limit. -/
theorem expand {stack : List String} (distinct : stack.Nodup) (fits : (stack.length : Int) ≤ limit) :
    Guarded look limit [.expanding stack] none where
  distinct := by
    intro _ he
    cases List.mem_singleton.mp he
    exact distinct
  bounded := by
    intro _ he
    cases List.mem_singleton.mp he
    exact fits
  circular := by simp
  tooDeep := by simp
  lost := by simp
  of_circular _ _ hs := nomatch hs
  of_tooDeep _ _ hs := nomatch hs

/-- A name is stopped that is in progress already. -/
theorem circle {stack : List String} {name : String} (known : name ∈ stack) :
    Guarded look limit [.entering stack name] (some (.of (.circular (stack ++ [name])))) where
  distinct := by simp
  bounded := by simp
  circular := by
    intro _ _ he _
    cases List.mem_singleton.mp he
    rfl
  tooDeep := by
    intro _ _ he new
    cases List.mem_singleton.mp he
    contradiction
  lost := by simp
  of_circular := by
    rintro _ names ⟨⟩ ⟨_, _, ⟨⟩⟩
    exact .inl ⟨_, _, rfl, known, rfl⟩
  of_tooDeep := by
    rintro _ _ ⟨⟩ ⟨_, _, ⟨⟩⟩

/-- A name is stopped that is one too many. -/
theorem full {stack : List String} {name : String} (leaf : String) (new : name ∉ stack)
    (full : limit < stack.length + 1) : Guarded look limit [.entering stack name]
      (some (.error ⟨.templateNesting limit, none, some leaf⟩)) where
  distinct := by simp
  bounded := by simp
  circular := by
    intro _ _ he known
    cases List.mem_singleton.mp he
    contradiction
  tooDeep := fun _ _ _ _ _ => ⟨leaf, rfl⟩
  lost := by simp
  of_circular := by
    rintro _ _ ⟨⟩ ⟨_, _, ⟨⟩⟩
  of_tooDeep := by
    rintro _ _ ⟨⟩ ⟨_, _, ⟨⟩⟩
    exact .inl ⟨_, _, rfl, new, full, rfl⟩

end Guarded

theorem nodup_stack_cons {before : List String} {chain : List Template} {t : Template}
    (old : (stack before chain).Nodup) (new : t.name ∉ stack before chain) :
    (stack before (t :: chain)).Nodup := by
  rw [stack_cons]
  refine List.nodup_append.mpr ⟨old, List.pairwise_singleton _ _, ?_⟩
  rintro a ha b hb rfl
  exact new (List.mem_singleton.mp hb ▸ ha)

/-- The names of a chain that is loaded differ from each other and from those in progress. -/
theorem nodup_of_climbs {before : List String} {leaf : String} {chain : List Template} {t : Template}
    {es : List Event} {r : Except Failure (List Template)}
    (h : Climbs look limit before leaf chain t es r) : (stack before chain).Nodup →
      ∀ {all}, r = .ok all → (before ++ all.map Template.name).Nodup := by
  induction h with
  | circular =>
    intro _ _ hr
    cases hr
  | tooDeep =>
    intro _ _ hr
    cases hr
  | lost =>
    intro _ _ hr
    cases hr
  | @root chain t new fits last =>
    rintro old _ ⟨⟩
    have both := nodup_stack_cons old new
    have perm : (before ++ (t :: chain).map Template.name).Perm (stack before (t :: chain)) := by
      unfold stack
      exact (List.reverse_perm _).symm.map _ |>.append_left _
    exact perm.nodup_iff.mpr both
  | parent new fits next found rest ih => exact fun old => ih (nodup_stack_cons old new)

theorem importNames_failure {defined : List String} {template : String} {source : Table Macro}
    {d' : Scratch} {f : Failure} : ∀ (names : List String) (d : Scratch),
    Merge.importNames defined template source names d = (.error f, d') →
    ∃ name, f = .of (.macroNotDefined name template)
  | [], d, h => by
    have : (Except.ok (), d) = (Except.error f, d') := h
    cases this
  | name :: names, d, h => by
    rcases hm : Table.find? name source with _ | m
    · rw [importNames_missing hm] at h
      cases h
      exact ⟨name, rfl⟩
    · rw [importNames_found hm] at h
      exact importNames_failure names _ h

/-! ### Events, rule by rule

Nodes are only expanded in places whose names in progress differ and are within
the limit: the chain has passed the guard. -/

/-- Names in progress that the guard has let in. -/
structure Fits (limit : Int) (active : List String) : Prop where
  distinct : active.Nodup
  bounded : (active.length : Int) ≤ limit

/-- What is so of the events of work, and of the failure that it ends with if it fails, in all the
ways that events come about. -/
structure Invariant (look : String → Except Failure Template) (limit : Int)
    (Q : List Event → Option Failure → Prop) : Prop where
  nil : Q [] none
  /-- One piece of work after another that went well. -/
  append {es es' stop} : Q es none → Q es' stop → Q (es ++ es') stop
  found {name t} : look name = .ok t → Q [.found name] none
  lost {name f} : look name = .error f → Q [.lost name] (some f)
  enter {stack : List String} {name} : name ∉ stack → (stack.length : Int) + 1 ≤ limit →
    Q [.entering stack name] none
  circle {stack name} : name ∈ stack →
    Q [.entering stack name] (some (.of (.circular (stack ++ [name]))))
  full {stack : List String} {name} (leaf : String) : name ∉ stack → limit < stack.length + 1 →
    Q [.entering stack name] (some (.error ⟨.templateNesting limit, none, some leaf⟩))
  expand {stack} : Fits limit stack → Q [.expanding stack] none
  /-- Work ends with a failure that has nothing to do with the guard. -/
  stop {es f} : Q es none → (∀ names, ¬isCircular f names) → (∀ bound, ¬isTooDeep f bound) →
    Q es (some f)

/-- The guard on templates in progress is exact. -/
theorem Guarded.invariant : Invariant look limit (Guarded look limit) where
  nil := .nil
  append := .append
  found _ := .load _
  lost := .fail
  enter := .enter
  circle := .circle
  full := .full
  expand fits := .expand fits.distinct fits.bounded
  stop := .stop_of

theorem not_circular {cause : Cause} (h : ∀ names, cause ≠ .circular names) (names : List String) :
    ¬isCircular (.of cause) names := by
  rintro ⟨_, _, ⟨⟩⟩
  exact h names rfl

theorem not_tooDeep {cause : Cause} (h : ∀ bound, cause ≠ .templateNesting bound) (bound : Int) :
    ¬isTooDeep (.of cause) bound := by
  rintro ⟨_, _, ⟨⟩⟩
  exact h bound rfl

section

variable {Q : List Event → Option Failure → Prop}

theorem Invariant.fault (inv : Invariant look limit Q) (fault : Fault) :
    Q [] (some (.fault fault)) := by
  refine inv.stop inv.nil ?_ ?_
  · rintro _ ⟨_, _, ⟨⟩⟩
  · rintro _ ⟨_, _, ⟨⟩⟩

theorem Climbs.upholds {before : List String} {leaf : String} {chain : List Template}
    {t : Template} {es : List Event} {r : Except Failure (List Template)}
    (h : Climbs look limit before leaf chain t es r) (inv : Invariant look limit Q) :
    Q es (failure? r) := by
  induction h with
  | circular known => exact inv.circle known
  | tooDeep new full => exact inv.full leaf new full
  | root new fits _ => exact inv.enter new fits
  | lost new fits _ missing => exact inv.append (inv.enter new fits) (inv.lost missing)
  | parent new fits _ found _ ih =>
    exact inv.append (inv.enter new fits) (inv.append (inv.found found) ih)

mutual

theorem ExpandsNode.upholds {p : Place} {n : Node} {d : Scratch} {es : List Event}
    {r : Except Failure (List Node)} {d' : Scratch} (h : ExpandsNode look limit p n d es r d')
    (inv : Invariant look limit Q) (fits : Fits limit p.active) : Q es (failure? r) := by
  match h with
  | .text => exact inv.nil
  | .output => exact inv.nil
  | .assign => exact inv.nil
  | .inherit => exact inv.nil
  | .definition => exact inv.nil
  | .block version =>
    rw [failure?_map]
    exact version.upholds inv fits
  | .noParent _ => exact inv.nil
  | .parent _ version => exact version.upholds inv fits
  | .inclusion merged => exact merged.upholds inv fits.distinct
  | .inclusionFails merged => exact merged.upholds inv fits.distinct
  | .imports (r := r) merged taken =>
    rw [failure?_map]
    cases r with
    | ok _ => exact merged.upholds inv fits.distinct
    | error f =>
      obtain ⟨name, rfl⟩ := importNames_failure _ _ taken
      exact inv.stop (merged.upholds inv fits.distinct) (not_circular nofun) (not_tooDeep nofun)
  | .importsFails merged => exact merged.upholds inv fits.distinct
  | .loop inner =>
    rw [failure?_map]
    exact inner.upholds inv fits
  | .choice inner others =>
    rw [failure?_map]
    exact inv.append (inner.upholds inv fits) (others.upholds inv fits)
  | .choiceFails inner => exact inner.upholds inv fits

theorem ExpandsRest.upholds {p : Place} {a : Alternative} {d : Scratch} {es : List Event}
    {r : Except Failure Alternative} {d' : Scratch} (h : ExpandsRest look limit p a d es r d')
    (inv : Invariant look limit Q) (fits : Fits limit p.active) : Q es (failure? r) := by
  match h with
  | .choice inner others =>
    rw [failure?_map]
    exact inv.append (inner.upholds inv fits) (others.upholds inv fits)
  | .choiceFails inner => exact inner.upholds inv fits
  | .otherwise inner =>
    rw [failure?_map]
    exact inner.upholds inv fits

theorem Expands.upholds {p : Place} {ns : List Node} {d : Scratch} {es : List Event}
    {r : Except Failure (List Node)} {d' : Scratch} (h : Expands look limit p ns d es r d')
    (inv : Invariant look limit Q) (fits : Fits limit p.active) : Q es (failure? r) := by
  match h with
  | .nil => exact inv.nil
  | .cons first others =>
    rw [failure?_map]
    exact inv.append (inv.append (inv.expand fits) (first.upholds inv fits)) (others.upholds inv fits)
  | .consFails first => exact inv.append (inv.expand fits) (first.upholds inv fits)

theorem Resolves.upholds {p : Place} {key : BlockKey} {d : Scratch} {es : List Event}
    {r : Except Failure (List Node)} {d' : Scratch} (h : Resolves look limit p key d es r d')
    (inv : Invariant look limit Q) (fits : Fits limit p.active) : Q es (failure? r) := by
  match h with
  | .noBlock _ => exact inv.fault _
  | .known _ _ => exact inv.nil
  | .again _ _ _ => exact inv.stop inv.nil (not_circular nofun) (not_tooDeep nofun)
  | .noVersion _ _ _ _ => exact inv.fault _
  | .opens _ _ _ _ inner => exact inner.upholds inv fits
  | .opensFails _ _ _ _ inner => exact inner.upholds inv fits

theorem ExpandsMacros.upholds {p : Place} {ms : Table Macro} {d : Scratch} {es : List Event}
    {r : Except Failure Unit} {d' : Scratch} (h : ExpandsMacros look limit p ms d es r d')
    (inv : Invariant look limit Q) (fits : Fits limit p.active) : Q es (failure? r) := by
  match h with
  | .nil => exact inv.nil
  | .cons first others => exact inv.append (first.upholds inv fits) (others.upholds inv fits)
  | .consFails first => exact first.upholds inv fits

theorem Reaches.upholds {before : List String} {name : String} {es : List Event}
    {r : Except Failure Merged} (h : Reaches look limit before name es r)
    (inv : Invariant look limit Q) (distinct : before.Nodup) : Q es (failure? r) := by
  match h with
  | .lost missing => exact inv.lost missing
  | .merged found merge => exact inv.append (inv.found found) (merge.upholds inv distinct)

/-- **What all ways that events come about keep is so of a whole merge.** -/
theorem Merges.upholds {before : List String} {leaf : Template} {es : List Event}
    {r : Except Failure Merged} (h : Merges look limit before leaf es r)
    (inv : Invariant look limit Q) (distinct : before.Nodup) : Q es (failure? r) := by
  have fits {chain : List Template} {es : List Event}
      (climb : Climbs look limit before leaf.name [] leaf es (.ok chain)) :
      Fits limit (before ++ chain.map Template.name) :=
    ⟨nodup_of_climbs climb (by simpa [stack] using distinct) rfl, (length_of_climbs climb rfl).2⟩
  match h with
  | .refused climb => exact climb.upholds inv
  | .macrosFail climb macros => exact inv.append (climb.upholds inv) (macros.upholds inv (fits climb))
  | .expands climb macros nodes =>
    rw [failure?_map]
    have bodies := macros.upholds inv (fits climb)
    exact inv.append (climb.upholds inv) (inv.append bodies (nodes.upholds inv (fits climb)))

end

end

end

end Stencil.Merging

namespace Stencil.Engine

open Merging

/-- **Merging ends, and the guard on templates in progress is exact.** Whatever the loader, the
limit, the template and the session are, there is one way through the rules of merging, which have
no bound of their own, and it ends as the engine does. On it, nodes are expanded only while the names
in progress differ and are within the limit. A template that was loaded is refused as circular where
its name is in progress already, and as nested too deep where its name is new and one too many. A
merge fails in these ways nowhere else, but for a template whose load failed so. -/
theorem mergeTemplate_guarded (e : Engine) (t : Template) (s : Session) :
    ∃ es, Merges (s.answer e.loader) e.limits.nesting [] t es (e.mergeTemplate t s).1 ∧
      (∀ es' r, Merges (s.answer e.loader) e.limits.nesting [] t es' r →
        es' = es ∧ r = (e.mergeTemplate t s).1) ∧
      Guarded (s.answer e.loader) e.limits.nesting es (failure? (e.mergeTemplate t s).1) := by
  obtain ⟨es, h⟩ := (e.mergeTemplate_eq_iff t s _).mp rfl
  exact ⟨es, h, fun es' r h' => h.det h', h.upholds Guarded.invariant .nil⟩

end Stencil.Engine
