/-
# What is reported as a circle

A template that is in progress does not enter again. The error that says so carries the
names of all templates in progress, and then the name that came again. So all names but
the last differ, and the last is one of those before.

Templates come into progress in legs. A leg is climbed from a template by way of
`extends`, and when its root is reached a tag in one of its templates leads to the
template that the next leg starts from. In the last leg the climb stops. Its names are
reported in the order of the climb, but those of the legs before it from the root down,
which is against the references. So the report begins with the template that was asked
for just if this extends nothing or its own chain runs into the circle. It is a path of
references if each leg before the last is a single template; in all other cases it can
only be one if templates refer back to those that extend them.

From the template that was asked for a path of references leads to the name that came
again, over templates that are reported. It need not have come by that name before: with
a template all those that it extends are in progress, whether the path goes over them or
not.

Key definitions: `Template.RefersTo`, `Merging.Linked`, `Merging.Course`,
`Merging.inProgress`, `Merging.Circle`, `Engine.Candid`.
Key theorems: `Merging.Trail.course`, `Merging.Course.linked_of_single`,
`Merging.Course.exists_route`, `Engine.reported_circle`.
-/
import Mathlib.Data.List.Nodup
import Stencil.Proofs.Ancestry
import Stencil.Proofs.Builtins
import Stencil.Proofs.Failures
import Stencil.Proofs.Inheritance
import Stencil.Proofs.Unreachable

namespace Stencil

/-- A template refers to another one by its name: it extends that, or a tag in it leads there. -/
def Template.RefersTo (t : Template) (name : String) : Prop :=
  t.parent = some name ∨ ∃ n ∈ walkAll t.tree, n.leadsTo? = some name

instance (t : Template) (name : String) : Decidable (t.RefersTo name) :=
  inferInstanceAs (Decidable (_ ∨ _))

namespace Merging

open Ancestry Substitution

/-- Each template refers to the next one. -/
def Linked (ts : List Template) : Prop :=
  ts.IsChain fun t u => t.RefersTo u.name

instance (ts : List Template) : Decidable (Linked ts) :=
  inferInstanceAs (Decidable (ts.IsChain _))

/-- How templates come into progress until a climb stops: the legs that are completed, each from
the template that it starts from to its root, and the leg in which the climb stops, up to the
template that does not enter. -/
inductive Course (look : String → Except Failure Template) :
    Template → List (List Template) → List Template → Prop
  | climbs {t us} (up : (t :: us).IsChain (Extends look)) : Course look t [] (t :: us)
  | onward {t leg v name u legs up} (lineage : Lineage look t leg) (inside : v ∈ leg)
    (led : ∃ n ∈ walkAll v.tree, n.leadsTo? = some name) (found : look name = .ok u)
    (rest : Course look u legs up) : Course look t (leg :: legs) up

/-- The order in which templates in progress are kept: completed legs are turned round. -/
def inProgress (legs : List (List Template)) (up : List Template) : List Template :=
  legs.flatMap List.reverse ++ up

@[simp] theorem inProgress_nil (up : List Template) : inProgress [] up = up := rfl

@[simp] theorem inProgress_cons (leg : List Template) (legs : List (List Template))
    (up : List Template) : inProgress (leg :: legs) up = leg.reverse ++ inProgress legs up := by
  simp [inProgress]

/-- What is reported when a course from a template stops at a name in progress: the names of all
templates in progress, and that name. -/
structure Circle (look : String → Except Failure Template) (t : Template)
    (legs : List (List Template)) (up : List Template) (names : List String) : Prop where
  course : Course look t legs up
  listed : names = (inProgress legs up).map Template.name
  /-- The last name is one of those before, which differ. -/
  closes : ∃ stack name, names = stack ++ [name] ∧ stack.Nodup ∧ name ∈ stack

variable {look : String → Except Failure Template} {limit : Int} {t u : Template}

/-! ### From the trail of a merge to the course

The names in progress before a leg are a parameter of the induction along the trail. -/

/-- A climb whose last event is that a template is about to enter went up to this template step by
step. -/
theorem Climbs.upward {before : List String} {leaf : String} {chain : List Template} {es : List Event}
    {r : Except Failure (List Template)} (h : Climbs look limit before leaf chain t es r) :
    ∀ names name, es.getLast? = some (.entering names name) → (stack before chain).Nodup →
      names.Nodup ∧ ∃ us, (t :: us).IsChain (Extends look) ∧
        names ++ [name] = stack before chain ++ (t :: us).map Template.name := by
  induction h with
  | circular _ =>
    rintro _ _ ⟨⟩ distinct
    exact ⟨distinct, [], List.isChain_singleton _, rfl⟩
  | tooDeep _ _ =>
    rintro _ _ ⟨⟩ distinct
    exact ⟨distinct, [], List.isChain_singleton _, rfl⟩
  | root _ _ _ =>
    rintro _ _ ⟨⟩ distinct
    exact ⟨distinct, [], List.isChain_singleton _, rfl⟩
  | lost _ _ _ _ => exact fun _ _ last => nomatch last
  | @parent chain t name u es _ new _ next found _ ih =>
    intro names name' last distinct
    have inner : es.getLast? = some (.entering names name') := by
      cases es with
      | nil => cases last
      | cons e es => rwa [List.getLast?_cons_cons, List.getLast?_cons_cons] at last
    obtain ⟨differ, us, up, same⟩ := ih names name' inner (nodup_stack_cons distinct new)
    refine ⟨differ, u :: us, List.isChain_cons_cons.mpr ⟨⟨name, next, found⟩, up⟩, ?_⟩
    rw [same, stack_cons, List.append_assoc]
    rfl

/-- **A trail that ends in a circle is a course, and the names are those in progress on it.** -/
theorem Trail.course {before : List String} {stop : Stop} (h : Trail look limit before t stop) :
    ∀ names, stop = .circular names → before.Nodup →
      ∃ legs up, Course look t legs up ∧
        names = before ++ (inProgress legs up).map Template.name ∧
        ∃ stack name, names = stack ++ [name] ∧ stack.Nodup ∧ name ∈ stack := by
  induction h with
  | @circular before _ _ _ _ _ climb last known =>
    rintro _ ⟨⟩ distinct
    have start : (Merging.stack before []).Nodup := by simpa [Merging.stack] using distinct
    obtain ⟨differ, us, up, same⟩ := climb.upward _ _ last start
    refine ⟨[], _, .climbs up, ?_, _, _, rfl, differ, known⟩
    simpa [Merging.stack] using same
  | @onward before t _ chain _ _ _ climb led found _ ih =>
    intro names circular distinct
    have start : (Merging.stack before []).Nodup := by simpa [Merging.stack] using distinct
    obtain ⟨leg, lineage, whole⟩ := lineage_of_climbs climb _ rfl
    obtain ⟨legs, up, rest, same, closes⟩ := ih names circular (nodup_of_climbs climb start rfl)
    obtain ⟨v, inside, led⟩ := led
    rw [List.append_nil] at whole
    subst whole
    refine ⟨leg :: legs, up, .onward lineage (List.mem_reverse.mp inside) led found rest, ?_, closes⟩
    rw [same, inProgress_cons, List.map_append, List.append_assoc]
  | tooDeep _ _ _ _ => exact fun _ other => nomatch other
  | ancestor _ _ _ => exact fun _ other => nomatch other
  | selfContained _ _ => exact fun _ other => nomatch other
  | macroNotDefined _ _ _ => exact fun _ other => nomatch other
  | tag _ _ _ => exact fun _ other => nomatch other

/-! ### Where the report starts -/

theorem exists_eq_cons_of_lineage {leg : List Template} (h : Lineage look t leg) :
    ∃ us, leg = t :: us := by
  cases h with
  | root _ => exact ⟨[], rfl⟩
  | «extends» _ _ _ => exact ⟨_, rfl⟩

variable {legs : List (List Template)} {up : List Template}

/-- There is a template that does not enter. -/
theorem Course.exists_last (h : Course look t legs up) : ∃ us u, inProgress legs up = us ++ [u] := by
  induction h with
  | climbs _ => exact ⟨_, _, (List.dropLast_concat_getLast (List.cons_ne_nil _ _)).symm⟩
  | @onward _ leg _ _ _ _ _ _ _ _ _ _ ih =>
    obtain ⟨us, u, same⟩ := ih
    exact ⟨leg.reverse ++ us, u, by rw [inProgress_cons, same, List.append_assoc]⟩

/-- The names start with that of the template that was asked for just if it extends nothing or
no leg was completed. -/
theorem Circle.head?_eq_iff {names : List String} (h : Circle look t legs up names) :
    names.head? = some t.name ↔ legs = [] ∨ t.parent = none := by
  obtain ⟨course, listed, stack, name, closes, distinct, -⟩ := h
  cases course with
  | climbs _ =>
    subst listed
    exact iff_of_true rfl (.inl rfl)
  | @onward _ _ _ _ _ legs _ lineage _ _ _ rest =>
    cases lineage with
    | root last =>
      subst listed
      exact iff_of_true (by simp) (.inr last)
    | @«extends» _ _ _ us next _ above =>
      refine iff_of_false (fun first => ?_) (fun last => by simp [next] at last)
      -- The names start with that of the root of the first leg, which differs from its leaf.
      obtain ⟨vs, v, whole⟩ := rest.exists_last
      have split : stack ++ [name] =
          (us.reverse.map Template.name ++ t.name :: vs.map Template.name) ++ [v.name] := by
        simp [← closes, listed, whole]
      have front : us.reverse.map Template.name ≠ [] := by
        obtain ⟨_, rfl⟩ := exists_eq_cons_of_lineage above
        simp
      rw [closes, split, List.append_assoc, List.head?_append_of_ne_nil _ front] at first
      rw [(List.append_inj' split rfl).1, List.nodup_middle] at distinct
      exact (List.nodup_cons.mp distinct).1 (List.mem_append_left _ (List.mem_of_head? first))

/-! ### References -/

/-- Where the last template of a path of references refers to the first one of another, the two
are one path. -/
theorem Linked.append {us vs : List Template} {v : Template} (first : Linked (us ++ [v]))
    (step : v.RefersTo u.name) (start : vs.head? = some u) (others : Linked vs) :
    Linked (us ++ v :: vs) := by
  rw [List.append_cons]
  refine List.isChain_append.mpr ⟨first, others, ?_⟩
  simpa [start] using step

/-- In a path of references through all that is in progress, each template of a completed leg is
referred to by the one that it extends. -/
theorem Linked.referred {leg : List Template} (h : Linked (inProgress legs up))
    (completed : leg ∈ legs) :
    leg.IsChain fun t u => u.RefersTo t.name := by
  obtain ⟨earlier, later, rfl⟩ := List.append_of_mem completed
  have split : inProgress (earlier ++ leg :: later) up =
      earlier.flatMap List.reverse ++ (leg.reverse ++ inProgress later up) := by
    simp [inProgress]
  unfold Linked at h
  rw [split] at h
  exact List.isChain_reverse.mp h.right_of_append.left_of_append

theorem isChain_of_lineage {leg : List Template} (h : Lineage look t leg) :
    leg.IsChain (Extends look) := by
  induction h with
  | root _ => exact List.isChain_singleton _
  | «extends» next found rest ih =>
    obtain ⟨us, rfl⟩ := exists_eq_cons_of_lineage rest
    exact List.isChain_cons_cons.mpr ⟨⟨_, next, found⟩, ih⟩

section

variable (named : ∀ name u, look name = .ok u → u.name = name)

include named

theorem linked_of_isChain {us : List Template} (h : us.IsChain (Extends look)) : Linked us :=
  h.imp fun _ u ⟨name, next, found⟩ => .inl (named name u found ▸ next)

/-- Every template of a leg but the first is found under its name. -/
theorem found_of_isChain {us : List Template} (h : (t :: us).IsChain (Extends look)) :
    ∀ v ∈ t :: us, v = t ∨ look v.name = .ok v := by
  induction us generalizing t with
  | nil => exact fun v hv => .inl (List.mem_singleton.mp hv)
  | cons u us ih =>
    obtain ⟨⟨name, -, found⟩, more⟩ := List.isChain_cons_cons.mp h
    have here : look u.name = .ok u := (named name u found).symm ▸ found
    intro v hv
    rcases List.mem_cons.mp hv with rfl | hv
    · exact .inl rfl
    · rcases ih more v hv with rfl | there
      · exact .inr here
      · exact .inr there

/-- All templates of a course but the one that it starts from are found under their names. -/
theorem Course.found (h : Course look t legs up) :
    ∀ v ∈ inProgress legs up, v = t ∨ look v.name = .ok v := by
  induction h with
  | climbs up => exact found_of_isChain named up
  | @onward t leg _ name u _ _ lineage _ _ found _ ih =>
    have here : look u.name = .ok u := (named name u found).symm ▸ found
    intro v hv
    rw [inProgress_cons, List.mem_append, List.mem_reverse] at hv
    rcases hv with own | later
    · obtain ⟨us, rfl⟩ := exists_eq_cons_of_lineage lineage
      exact found_of_isChain named (isChain_of_lineage lineage) v own
    · rcases ih v later with rfl | there
      · exact .inr here
      · exact .inr there

/-- **If every completed leg is a single template, the templates in progress are a path of
references** from the one that the course starts from. -/
theorem Course.linked_of_single (h : Course look t legs up) :
    (∀ leg ∈ legs, leg.length = 1) →
      (inProgress legs up).head? = some t ∧ Linked (inProgress legs up) := by
  induction h with
  | climbs up => exact fun _ => ⟨rfl, linked_of_isChain named up⟩
  | @onward t leg v name u legs up lineage inside led found _ ih =>
    intro single
    obtain ⟨start, linked⟩ := ih fun other later => single other (List.mem_cons_of_mem _ later)
    obtain ⟨us, rfl⟩ := exists_eq_cons_of_lineage lineage
    obtain rfl : us = [] := by simpa using single _ List.mem_cons_self
    obtain rfl := List.mem_singleton.mp inside
    have step : v.RefersTo u.name := .inr (named name u found ▸ led)
    have alone : Linked ([] ++ [v]) := List.isChain_singleton v
    exact ⟨rfl, alone.append step start linked⟩

/-- **There is a path of references** from where the course starts to where it stops, along the
legs. -/
theorem Course.exists_route (h : Course look t legs up) :
    ∃ route, route.head? = some t ∧ route.getLast? = up.getLast? ∧ Linked route ∧
      route.Sublist (legs.flatten ++ up) := by
  induction h with
  | climbs up => exact ⟨_, rfl, rfl, linked_of_isChain named up, .refl _⟩
  | @onward t leg v name u legs up lineage inside led found _ ih =>
    obtain ⟨route, start, stop, linked, within⟩ := ih
    obtain ⟨us, vs, split⟩ := List.append_of_mem inside
    have climbed : (us ++ [v]).IsChain (Extends look) := by
      have whole := isChain_of_lineage lineage
      rw [split, List.append_cons] at whole
      exact whole.left_of_append
    have step : v.RefersTo u.name := .inr (named name u found ▸ led)
    refine ⟨us ++ v :: route, ?_, ?_, .append (linked_of_isChain named climbed) step start linked, ?_⟩
    · obtain ⟨more, same⟩ := exists_eq_cons_of_lineage lineage
      have first : (us ++ v :: vs).head? = some t := by rw [← split, same]; rfl
      cases us <;> simpa using first
    · rw [← stop]
      cases route with
      | nil => cases start
      | cons w route => simp [List.getLast?_append, List.getLast?_cons]
    · rw [List.flatten_cons, List.append_assoc, split, List.append_assoc]
      exact (List.Sublist.refl us).append ((within.trans (List.sublist_append_right vs _)).cons_cons v)

end

end Merging

/-! ### Requests -/

namespace Engine

open Merging

/-- Only the engine itself reports circles: the loader does not, and no function or filter does. -/
structure Candid (e : Engine) : Prop where
  loader : ∀ name f names, e.loader name = .error f → ¬isCircular f names
  calls : ∀ f names, e.renderer.Raises f → ¬isCircular f names

/-- The standard functions and filters report none, and neither do loaders of tables and of
directories. -/
theorem candid_standard (world : Surroundings) {loader : Loader}
    (fails : ∀ name, Fails (Failure.OfLoader name) (loader name)) (limits : Limits) :
    (standard world loader limits).Candid where
  loader name f names failed := by
    intro circular
    cases fails name f failed with
    | notFound => cases isCircular_error.mp circular
    | unreadable _ => cases isCircular_error.mp circular
    | fault _ => obtain ⟨_, _, ⟨⟩⟩ := circular
  calls f names raises := by
    intro circular
    cases ofCall_of_raises raises with
    | cause calling =>
      cases isCircular_error.mp circular
      cases calling
    | fault _ => obtain ⟨_, _, ⟨⟩⟩ := circular

variable {e : Engine} {s : Session} {t : Template} {f : Failure} {names : List String}

theorem not_circular_of_source (h : f.OfSource) : ¬isCircular f names := by
  rintro ⟨_, _, rfl⟩
  cases h

/-- That there is no template of a name is no circle. -/
theorem Candid.not_circular_of_answer (candid : e.Candid) {name : String}
    (missing : s.answer e.loader name = .error f) : ¬isCircular f names := by
  unfold Session.answer Session.fetch at missing
  split at missing
  · cases missing
  · split at missing
    · rename_i failed
      cases missing
      rw [isCircular_withTemplate]
      exact candid.loader name _ names failed
    · exact not_circular_of_source (Template.compile_ofSource missing)

/-- Rendering what was merged reports no circle. -/
theorem Candid.not_circular_of_renderMerged (candid : e.Candid) {m : Merged} {context : Value}
    (h : e.renderMerged m context = .error f) : ¬isCircular f names := by
  intro circular
  cases Renderer.origin_of_render h with
  | evaluation runtime _ =>
    cases isCircular_error.mp circular
    cases runtime
  | fault _ => obtain ⟨_, _, ⟨⟩⟩ := circular
  | raised raises => exact candid.calls f names raises circular

/-- **What a merge reports as a circle is one.** -/
theorem Candid.circle_of_mergeTemplate (candid : e.Candid)
    (h : (e.mergeTemplate t s).1 = .error f) (circular : isCircular f names) :
    ∃ legs up, Circle (s.answer e.loader) t legs up names := by
  obtain ⟨es, merges⟩ := (e.mergeTemplate_eq_iff t s (.error f)).mp h
  obtain ⟨stop, trail, rfl⟩ := merges.trail
  cases stop with
  | circular found =>
    obtain ⟨_, _, ⟨⟩⟩ := circular
    obtain ⟨legs, up, course, listed, closes⟩ := trail.course names rfl .nil
    exact ⟨legs, up, course, listed, closes⟩
  | tooDeep _ _ => cases isCircular_error.mp circular
  | selfContained _ => cases isCircular_error.mp circular
  | macroNotDefined _ _ => cases isCircular_error.mp circular
  | lost name f => exact absurd circular (candid.not_circular_of_answer trail.sound)

theorem Candid.circle_of_renderTemplate (candid : e.Candid) {context : Value}
    (h : (e.renderTemplate t context s).1 = .error f) (circular : isCircular f names) :
    ∃ legs up, Circle (s.answer e.loader) t legs up names := by
  obtain ⟨raised, rfl, failed | ⟨m, -, failed⟩⟩ := fails_of_renderTemplate h
  · exact candid.circle_of_mergeTemplate failed (isCircular_withTemplate.mp circular)
  · exact absurd (isCircular_withTemplate.mp circular) (candid.not_circular_of_renderMerged failed)

/-- The same where the template is loaded first, by its name. -/
theorem Candid.circle_of_load (candid : e.Candid) (built : s.Built) {α : Type} {name : String}
    {work : Template → Work Session α}
    (circles : ∀ t s f, (work t s).1 = .error f → isCircular f names →
      ∃ legs up, Circle (s.answer e.loader) t legs up names)
    (h : (Work.bind (e.load name) work s).1 = .error f) (circular : isCircular f names) :
    ∃ t legs up, s.answer e.loader name = .ok t ∧ t.name = name ∧
      Circle (s.answer e.loader) t legs up names := by
  rcases fails_of_load h with lost | ⟨t, found, failed⟩
  · exact absurd circular (candid.not_circular_of_answer lost)
  · obtain ⟨legs, up, circle⟩ := circles t (e.load name s).2 f failed circular
    rw [show (e.load name s).2.answer e.loader = s.answer e.loader from
      Session.answer_load e.loader name s] at circle
    exact ⟨t, legs, up, found, built.name_of_answer found, circle⟩

theorem Candid.circle_of_renderString (candid : e.Candid) {source name : String} {context : Value}
    (h : (e.renderString source name context s).1 = .error f) (circular : isCircular f names) :
    ∃ t legs up, Template.compile name source = .ok t ∧ t.name = name ∧
      Circle (s.answer e.loader) t legs up names := by
  rcases fails_of_renderString h with refused | ⟨t, compiled, failed⟩
  · exact absurd circular (not_circular_of_source (Template.compile_ofSource refused))
  · obtain ⟨legs, up, circle⟩ := candid.circle_of_renderTemplate failed circular
    have fetched : Session.fetch (fun _ => .ok source) name = .ok t := compiled
    exact ⟨t, legs, up, compiled, Session.name_of_fetch fetched, circle⟩

/-- **What is reported as a circle.** Let only the engine report circles, and let the session be one
after some loads. If a template cannot be merged or rendered, by its name or from a source that goes
by one, because of a circle, then templates came into progress on a course that starts from it, and
the names that the error carries are those in progress, which differ, with one of them again. They
start with the name that was asked for just if the template extends nothing or the circle is in its
own chain. If every completed leg is a single template they are a path of references from it, each
template being the one of its name; if not, they are one only if in each completed leg every
template is referred to by the one that it extends. There always is a path of references from the
template to the last name, along the legs. -/
theorem reported_circle (candid : e.Candid) (built : s.Built) :
    (∀ name f names, (e.merge name s).1 = .error f → isCircular f names →
      ∃ t legs up, s.answer e.loader name = .ok t ∧ t.name = name ∧
        Circle (s.answer e.loader) t legs up names) ∧
    (∀ name context f names, (e.render name context s).1 = .error f → isCircular f names →
      ∃ t legs up, s.answer e.loader name = .ok t ∧ t.name = name ∧
        Circle (s.answer e.loader) t legs up names) ∧
    (∀ source name context f names, (e.renderString source name context s).1 = .error f →
      isCircular f names → ∃ t legs up, Template.compile name source = .ok t ∧ t.name = name ∧
        Circle (s.answer e.loader) t legs up names) ∧
    ∀ t legs up names, Circle (s.answer e.loader) t legs up names →
      (∀ u ∈ inProgress legs up, u = t ∨ s.answer e.loader u.name = .ok u) ∧
      (names.head? = some t.name ↔ legs = [] ∨ t.parent = none) ∧
      ((∀ leg ∈ legs, leg.length = 1) →
        (inProgress legs up).head? = some t ∧ Linked (inProgress legs up)) ∧
      (Linked (inProgress legs up) → ∀ leg ∈ legs, leg.IsChain fun t u => u.RefersTo t.name) ∧
      ∃ route, route.head? = some t ∧ route.getLast? = up.getLast? ∧ Linked route ∧
        route.Sublist (legs.flatten ++ up) := by
  have named : ∀ name u, s.answer e.loader name = .ok u → u.name = name :=
    fun _ _ answer => built.name_of_answer answer
  refine ⟨fun name f names => ?_, fun name context f names => ?_,
    fun source name context f names => candid.circle_of_renderString, fun t legs up names circle => ?_⟩
  · exact candid.circle_of_load built fun _ _ _ => candid.circle_of_mergeTemplate
  · exact candid.circle_of_load built fun _ _ _ => candid.circle_of_renderTemplate
  · exact ⟨circle.course.found named, circle.head?_eq_iff, circle.course.linked_of_single named,
      fun linked _ => linked.referred, circle.course.exists_route named⟩

/-- A template that includes one that extends it. -/
def ground : Template := .ofNodes "base" [.inclusion "page"]

def sheet : Template := .ofNodes "page" [.inherit "base"]

/-- An engine that has them. -/
def sheets : Engine :=
  .standard .still (.ofTable [("base", "\x7b% include \"page\" %\x7d"),
    ("page", "\x7b% extends \"base\" %\x7d")]) {}

/-- The report is no path of references: the page does not refer to itself. It refers to what it
extends, and that to the page. -/
theorem reported_circle_sheets :
    sheets.Candid ∧ Session.fresh.Built ∧
      (sheets.merge "page" .fresh).1 = .error (.of (.circular ["base", "page", "page"])) ∧
      (∃ legs up, Circle (Session.fresh.answer sheets.loader) sheet legs up ["base", "page", "page"] ∧
        ¬Linked (inProgress legs up)) ∧
      Linked [sheet, ground, sheet] := by
  have candid : sheets.Candid := candid_standard .still (Loader.ofTable_fails _) {}
  have page : Session.fresh.answer sheets.loader "page" = .ok sheet := by decide +kernel
  have refused : (sheets.merge "page" .fresh).1 =
      .error (.of (.circular ["base", "page", "page"])) := by decide +kernel
  obtain ⟨merges, -, -, tells⟩ := reported_circle candid .fresh
  obtain ⟨t, legs, up, answer, -, circle⟩ := merges _ _ _ refused ⟨none, none, rfl⟩
  cases page.symm.trans answer
  refine ⟨candid, .fresh, refused, ⟨legs, up, circle, fun linked => ?_⟩, by decide⟩
  obtain ⟨a, _, listed, -, rest⟩ := List.map_eq_cons_iff.mp circle.listed.symm
  obtain ⟨b, _, rfl, second, rest⟩ := List.map_eq_cons_iff.mp rest
  obtain ⟨c, _, rfl, third, -⟩ := List.map_eq_cons_iff.mp rest
  have same : b = sheet := by
    rcases (tells _ _ _ _ circle).1 b (by simp [listed]) with same | found
    · exact same
    · rw [second, page] at found
      exact (Except.ok.inj found).symm
  rw [listed] at linked
  have refers : b.RefersTo c.name :=
    (List.isChain_cons_cons.mp (List.isChain_cons_cons.mp linked).2).1
  rw [same, third] at refers
  exact absurd refers (by decide)

/-- No template refers to itself in the end here, yet a name in progress comes again. -/
example : ((standard .still (.ofTable [("base", ""),
    ("page", "\x7b% extends \"base\" %\x7d\x7b% include \"note\" %\x7d"),
    ("note", "\x7b% include \"base\" %\x7d")]) {}).merge "page" .fresh).1 =
      .error (.of (.circular ["base", "page", "note", "base"])) := by
  decide +kernel

end Engine

end Stencil
