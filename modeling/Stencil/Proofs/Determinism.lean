/-
# What a merge depends on

The rules of merging leave no choice: for what names lead to, the limit and the
names in progress, a template has one result, and one row of events on the way
to it. A merge that succeeds does so as well where fewer templates are in
progress, with the same result.

Key theorems: `Merging.Merges.det`, `Merging.Merges.fewer`,
`Engine.mergeTemplate_eq_iff`, `Engine.merge_eq_iff`, `Engine.renderTemplate_eq`.
-/
import Stencil.Proofs.Adequacy
import Stencil.Engine

namespace Stencil.Merging

section

variable {look : String → Except Failure Template} {limit : Int}

theorem Climbs.det {before : List String} {leaf : String} {chain : List Template} {t : Template}
    {es : List Event} {r : Except Failure (List Template)}
    (h : Climbs look limit before leaf chain t es r) :
    ∀ ⦃es₂ r₂⦄, Climbs look limit before leaf chain t es₂ r₂ → es₂ = es ∧ r₂ = r := by
  induction h with
  | circular known =>
    intro es₂ r₂ h'
    cases h' with
    | circular _ => exact ⟨rfl, rfl⟩
    | tooDeep new _ => contradiction
    | root new _ _ => contradiction
    | lost new _ _ _ => contradiction
    | parent new _ _ _ _ => contradiction
  | tooDeep new full =>
    intro es₂ r₂ h'
    cases h' with
    | circular _ => contradiction
    | tooDeep _ _ => exact ⟨rfl, rfl⟩
    | root _ fits _ => omega
    | lost _ fits _ _ => omega
    | parent _ fits _ _ _ => omega
  | root new fits last =>
    intro es₂ r₂ h'
    cases h' with
    | circular _ => contradiction
    | tooDeep _ full => omega
    | root _ _ _ => exact ⟨rfl, rfl⟩
    | lost _ _ next _ => cases last.symm.trans next
    | parent _ _ next _ _ => cases last.symm.trans next
  | lost new fits next found =>
    intro es₂ r₂ h'
    cases h' with
    | circular _ => contradiction
    | tooDeep _ full => omega
    | root _ _ last => cases next.symm.trans last
    | lost _ _ next' found' =>
      cases next.symm.trans next'
      cases found.symm.trans found'
      exact ⟨rfl, rfl⟩
    | parent _ _ next' found' _ =>
      cases next.symm.trans next'
      cases found.symm.trans found'
  | parent new fits next found rest ih =>
    intro es₂ r₂ h'
    cases h' with
    | circular _ => contradiction
    | tooDeep _ full => omega
    | root _ _ last => cases next.symm.trans last
    | lost _ _ next' found' =>
      cases next.symm.trans next'
      cases found.symm.trans found'
    | parent _ _ next' found' rest' =>
      cases next.symm.trans next'
      cases found.symm.trans found'
      obtain ⟨rfl, rfl⟩ := ih rest'
      exact ⟨rfl, rfl⟩

mutual

theorem ExpandsNode.det {p : Place} {n : Node} {d : Scratch} {es : List Event}
    {r : Except Failure (List Node)} {d' : Scratch} (h : ExpandsNode look limit p n d es r d') :
    ∀ ⦃es₂ r₂ d₂⦄, ExpandsNode look limit p n d es₂ r₂ d₂ → es₂ = es ∧ r₂ = r ∧ d₂ = d' := by
  match h with
  | .text =>
    intro es₂ r₂ d₂ h'
    cases h'
    exact ⟨rfl, rfl, rfl⟩
  | .output =>
    intro es₂ r₂ d₂ h'
    cases h'
    exact ⟨rfl, rfl, rfl⟩
  | .assign =>
    intro es₂ r₂ d₂ h'
    cases h'
    exact ⟨rfl, rfl, rfl⟩
  | .inherit =>
    intro es₂ r₂ d₂ h'
    cases h'
    exact ⟨rfl, rfl, rfl⟩
  | .definition =>
    intro es₂ r₂ d₂ h'
    cases h'
    exact ⟨rfl, rfl, rfl⟩
  | .block version =>
    have version_det := version.det
    intro es₂ r₂ d₂ h'
    cases h' with
    | block version' =>
      obtain ⟨rfl, rfl, rfl⟩ := version_det version'
      exact ⟨rfl, rfl, rfl⟩
  | .noParent lowest =>
    intro es₂ r₂ d₂ h'
    cases h' with
    | noParent => exact ⟨rfl, rfl, rfl⟩
    | parent above _ => cases lowest.symm.trans above
  | .parent above version =>
    have version_det := version.det
    intro es₂ r₂ d₂ h'
    cases h' with
    | noParent lowest => cases lowest.symm.trans above
    | parent above' version' =>
      cases above.symm.trans above'
      exact version_det version'
  | .inclusion merged =>
    have merged_det := merged.det
    intro es₂ r₂ d₂ h'
    cases h' with
    | inclusion merged' =>
      obtain ⟨rfl, ⟨⟩⟩ := merged_det merged'
      exact ⟨rfl, rfl, rfl⟩
    | inclusionFails merged' => cases (merged_det merged').2
  | .inclusionFails merged =>
    have merged_det := merged.det
    intro es₂ r₂ d₂ h'
    cases h' with
    | inclusion merged' => cases (merged_det merged').2
    | inclusionFails merged' =>
      obtain ⟨rfl, ⟨⟩⟩ := merged_det merged'
      exact ⟨rfl, rfl, rfl⟩
  | .imports merged taken =>
    have merged_det := merged.det
    intro es₂ r₂ d₂ h'
    cases h' with
    | imports merged' taken' =>
      obtain ⟨rfl, ⟨⟩⟩ := merged_det merged'
      cases taken.symm.trans taken'
      exact ⟨rfl, rfl, rfl⟩
    | importsFails merged' => cases (merged_det merged').2
  | .importsFails merged =>
    have merged_det := merged.det
    intro es₂ r₂ d₂ h'
    cases h' with
    | imports merged' => cases (merged_det merged').2
    | importsFails merged' =>
      obtain ⟨rfl, ⟨⟩⟩ := merged_det merged'
      exact ⟨rfl, rfl, rfl⟩
  | .loop inner =>
    have inner_det := inner.det
    intro es₂ r₂ d₂ h'
    cases h' with
    | loop inner' =>
      obtain ⟨rfl, rfl, rfl⟩ := inner_det inner'
      exact ⟨rfl, rfl, rfl⟩
  | .choice inner others =>
    have inner_det := inner.det
    have others_det := others.det
    intro es₂ r₂ d₂ h'
    cases h' with
    | choice inner' others' =>
      obtain ⟨rfl, ⟨⟩, rfl⟩ := inner_det inner'
      obtain ⟨rfl, rfl, rfl⟩ := others_det others'
      exact ⟨rfl, rfl, rfl⟩
    | choiceFails inner' => cases (inner_det inner').2.1
  | .choiceFails inner =>
    have inner_det := inner.det
    intro es₂ r₂ d₂ h'
    cases h' with
    | choice inner' _ => cases (inner_det inner').2.1
    | choiceFails inner' =>
      obtain ⟨rfl, ⟨⟩, rfl⟩ := inner_det inner'
      exact ⟨rfl, rfl, rfl⟩

theorem ExpandsRest.det {p : Place} {a : Alternative} {d : Scratch} {es : List Event}
    {r : Except Failure Alternative} {d' : Scratch} (h : ExpandsRest look limit p a d es r d') :
    ∀ ⦃es₂ r₂ d₂⦄, ExpandsRest look limit p a d es₂ r₂ d₂ → es₂ = es ∧ r₂ = r ∧ d₂ = d' := by
  match h with
  | .choice inner others =>
    have inner_det := inner.det
    have others_det := others.det
    intro es₂ r₂ d₂ h'
    cases h' with
    | choice inner' others' =>
      obtain ⟨rfl, ⟨⟩, rfl⟩ := inner_det inner'
      obtain ⟨rfl, rfl, rfl⟩ := others_det others'
      exact ⟨rfl, rfl, rfl⟩
    | choiceFails inner' => cases (inner_det inner').2.1
  | .choiceFails inner =>
    have inner_det := inner.det
    intro es₂ r₂ d₂ h'
    cases h' with
    | choice inner' _ => cases (inner_det inner').2.1
    | choiceFails inner' =>
      obtain ⟨rfl, ⟨⟩, rfl⟩ := inner_det inner'
      exact ⟨rfl, rfl, rfl⟩
  | .otherwise inner =>
    have inner_det := inner.det
    intro es₂ r₂ d₂ h'
    cases h' with
    | otherwise inner' =>
      obtain ⟨rfl, rfl, rfl⟩ := inner_det inner'
      exact ⟨rfl, rfl, rfl⟩

theorem Expands.det {p : Place} {ns : List Node} {d : Scratch} {es : List Event}
    {r : Except Failure (List Node)} {d' : Scratch} (h : Expands look limit p ns d es r d') :
    ∀ ⦃es₂ r₂ d₂⦄, Expands look limit p ns d es₂ r₂ d₂ → es₂ = es ∧ r₂ = r ∧ d₂ = d' := by
  match h with
  | .nil =>
    intro es₂ r₂ d₂ h'
    cases h'
    exact ⟨rfl, rfl, rfl⟩
  | .cons first others =>
    have first_det := first.det
    have others_det := others.det
    intro es₂ r₂ d₂ h'
    cases h' with
    | cons first' others' =>
      obtain ⟨rfl, ⟨⟩, rfl⟩ := first_det first'
      obtain ⟨rfl, rfl, rfl⟩ := others_det others'
      exact ⟨rfl, rfl, rfl⟩
    | consFails first' => cases (first_det first').2.1
  | .consFails first =>
    have first_det := first.det
    intro es₂ r₂ d₂ h'
    cases h' with
    | cons first' _ => cases (first_det first').2.1
    | consFails first' =>
      obtain ⟨rfl, ⟨⟩, rfl⟩ := first_det first'
      exact ⟨rfl, rfl, rfl⟩

theorem Resolves.det {p : Place} {key : BlockKey} {d : Scratch} {es : List Event}
    {r : Except Failure (List Node)} {d' : Scratch} (h : Resolves look limit p key d es r d') :
    ∀ ⦃es₂ r₂ d₂⦄, Resolves look limit p key d es₂ r₂ d₂ → es₂ = es ∧ r₂ = r ∧ d₂ = d' := by
  -- Each rule looks up the block, what is kept, the enclosing blocks and the version, in this order,
  -- and any two rules differ in what they find.
  match h with
  | .noBlock unnamed =>
    intro es₂ r₂ d₂ h'
    cases h' with
    | noBlock _ => exact ⟨rfl, rfl, rfl⟩
    | _ => simp_all
  | .known named kept =>
    intro es₂ r₂ d₂ h'
    cases h' with
    | known _ kept' =>
      cases kept.symm.trans kept'
      exact ⟨rfl, rfl, rfl⟩
    | _ => simp_all
  | .again named new inside =>
    intro es₂ r₂ d₂ h'
    cases h' with
    | again _ _ _ => exact ⟨rfl, rfl, rfl⟩
    | _ => simp_all
  | .noVersion named new outside absent =>
    intro es₂ r₂ d₂ h'
    cases h' with
    | noVersion _ _ _ _ => exact ⟨rfl, rfl, rfl⟩
    | _ => simp_all
  | .opens named new outside version inner =>
    have inner_det := inner.det
    intro es₂ r₂ d₂ h'
    cases h' with
    | opens named' _ _ version' inner' =>
      cases named.symm.trans named'
      cases version.symm.trans version'
      obtain ⟨rfl, ⟨⟩, rfl⟩ := inner_det inner'
      exact ⟨rfl, rfl, rfl⟩
    | opensFails named' _ _ version' inner' =>
      cases named.symm.trans named'
      cases version.symm.trans version'
      cases (inner_det inner').2.1
    | _ => simp_all
  | .opensFails named new outside version inner =>
    have inner_det := inner.det
    intro es₂ r₂ d₂ h'
    cases h' with
    | opensFails named' _ _ version' inner' =>
      cases named.symm.trans named'
      cases version.symm.trans version'
      obtain ⟨rfl, ⟨⟩, rfl⟩ := inner_det inner'
      exact ⟨rfl, rfl, rfl⟩
    | opens named' _ _ version' inner' =>
      cases named.symm.trans named'
      cases version.symm.trans version'
      cases (inner_det inner').2.1
    | _ => simp_all

theorem ExpandsMacros.det {p : Place} {ms : Table Macro} {d : Scratch} {es : List Event}
    {r : Except Failure Unit} {d' : Scratch} (h : ExpandsMacros look limit p ms d es r d') :
    ∀ ⦃es₂ r₂ d₂⦄, ExpandsMacros look limit p ms d es₂ r₂ d₂ → es₂ = es ∧ r₂ = r ∧ d₂ = d' := by
  match h with
  | .nil =>
    intro es₂ r₂ d₂ h'
    cases h'
    exact ⟨rfl, rfl, rfl⟩
  | .cons first others =>
    have first_det := first.det
    have others_det := others.det
    intro es₂ r₂ d₂ h'
    cases h' with
    | cons first' others' =>
      obtain ⟨rfl, ⟨⟩, rfl⟩ := first_det first'
      obtain ⟨rfl, rfl, rfl⟩ := others_det others'
      exact ⟨rfl, rfl, rfl⟩
    | consFails first' => cases (first_det first').2.1
  | .consFails first =>
    have first_det := first.det
    intro es₂ r₂ d₂ h'
    cases h' with
    | cons first' _ => cases (first_det first').2.1
    | consFails first' =>
      obtain ⟨rfl, ⟨⟩, rfl⟩ := first_det first'
      exact ⟨rfl, rfl, rfl⟩

theorem Reaches.det {before : List String} {name : String} {es : List Event}
    {r : Except Failure Merged} (h : Reaches look limit before name es r) :
    ∀ ⦃es₂ r₂⦄, Reaches look limit before name es₂ r₂ → es₂ = es ∧ r₂ = r := by
  match h with
  | .lost found =>
    intro es₂ r₂ h'
    cases h' with
    | lost found' =>
      cases found.symm.trans found'
      exact ⟨rfl, rfl⟩
    | merged found' _ => cases found.symm.trans found'
  | .merged found merge =>
    have merge_det := merge.det
    intro es₂ r₂ h'
    cases h' with
    | lost found' => cases found.symm.trans found'
    | merged found' merge' =>
      cases found.symm.trans found'
      obtain ⟨rfl, rfl⟩ := merge_det merge'
      exact ⟨rfl, rfl⟩

theorem Merges.det {before : List String} {leaf : Template} {es : List Event}
    {r : Except Failure Merged} (h : Merges look limit before leaf es r) :
    ∀ ⦃es₂ r₂⦄, Merges look limit before leaf es₂ r₂ → es₂ = es ∧ r₂ = r := by
  match h with
  | .refused climb =>
    intro es₂ r₂ h'
    cases h' with
    | refused climb' =>
      obtain ⟨rfl, ⟨⟩⟩ := climb.det climb'
      exact ⟨rfl, rfl⟩
    | macrosFail climb' _ => cases (climb.det climb').2
    | expands climb' _ _ => cases (climb.det climb').2
  | .macrosFail climb macros =>
    have macros_det := macros.det
    intro es₂ r₂ h'
    cases h' with
    | refused climb' => cases (climb.det climb').2
    | macrosFail climb' macros' =>
      obtain ⟨rfl, ⟨⟩⟩ := climb.det climb'
      obtain ⟨rfl, ⟨⟩, rfl⟩ := macros_det macros'
      exact ⟨rfl, rfl⟩
    | expands climb' macros' _ =>
      obtain ⟨rfl, ⟨⟩⟩ := climb.det climb'
      cases (macros_det macros').2.1
  | .expands climb macros nodes =>
    have macros_det := macros.det
    have nodes_det := nodes.det
    intro es₂ r₂ h'
    cases h' with
    | refused climb' => cases (climb.det climb').2
    | macrosFail climb' macros' =>
      obtain ⟨rfl, ⟨⟩⟩ := climb.det climb'
      cases (macros_det macros').2.1
    | expands climb' macros' nodes' =>
      obtain ⟨rfl, ⟨⟩⟩ := climb.det climb'
      obtain ⟨rfl, -, rfl⟩ := macros_det macros'
      obtain ⟨rfl, rfl, rfl⟩ := nodes_det nodes'
      exact ⟨rfl, rfl⟩

end

/-! ### Fewer names in progress

The names in progress only ever stop a merge, so what goes well goes well
without some of them, and comes to the same. No template that is in progress is
entered again on the way; so it does not matter, either, what else could be
found in their places. -/

/-- What is found is found in another lookup, too, unless it goes by one of some names. -/
def Retains (look look' : String → Except Failure Template) (names : List String) : Prop :=
  ∀ name t, look name = .ok t → t.name ∉ names → look' name = .ok t

theorem Retains.refl (names : List String) : Retains look look names :=
  fun _ _ found _ => found

theorem Retains.mono {look' : String → Except Failure Template} {names more : List String}
    (keeps : Retains look look' names) (sub : names ⊆ more) : Retains look look' more :=
  fun name t found new => keeps name t found fun member => new (sub member)

/-- The place with other names in progress. -/
def Place.under (p : Place) (active : List String) : Place :=
  { p with active }

theorem Place.above_under (p : Place) (active : List String) : (p.under active).above = p.above := by
  rcases p with ⟨_, _, _, _ | ⟨⟨_, _ | _⟩, _⟩⟩ <;> rfl

theorem stack_append_subset {before before' : List String} (sub : before' ⊆ before)
    (chain : List Template) : stack before' chain ⊆ stack before chain :=
  List.append_subset.mpr
    ⟨fun _ h => List.mem_append_left _ (sub h), List.subset_append_right _ _⟩

/-- The next template of a chain that is loaded is not in progress. -/
theorem Climbs.new {before : List String} {leaf : String} {chain : List Template} {t : Template}
    {es : List Event} {all : List Template} (h : Climbs look limit before leaf chain t es (.ok all)) :
    t.name ∉ stack before chain := by
  cases h with
  | root new _ _ => exact new
  | parent new _ _ _ _ => exact new

theorem Merges.new {before : List String} {leaf : Template} {es : List Event} {m : Merged}
    (h : Merges look limit before leaf es (.ok m)) : leaf.name ∉ before := by
  obtain ⟨_, _, _, _, _, _, _, climb, -⟩ := h.expanded
  exact fun member => climb.new (List.mem_append_left _ member)

section

variable {look' : String → Except Failure Template}

theorem Climbs.fewer {before before' : List String} {leaf : String} {chain : List Template}
    {t : Template} {es : List Event} {r : Except Failure (List Template)}
    (h : Climbs look limit before leaf chain t es r) (keeps : Retains look look' before')
    (sub : before' ⊆ before) (few : before'.length ≤ before.length) :
    r.isOk → ∃ es', Climbs look' limit before' leaf chain t es' r := by
  have less (chain : List Template) :
      (stack before' chain).length ≤ (stack before chain).length := by
    simp only [stack, List.length_append]
    omega
  induction h with
  | circular =>
    intro ok
    cases ok
  | tooDeep =>
    intro ok
    cases ok
  | lost =>
    intro ok
    cases ok
  | @root chain t new fits last =>
    have := less chain
    exact fun _ => ⟨_, .root (fun h => new (stack_append_subset sub _ h)) (by omega) last⟩
  | @parent chain t name u es r new fits next found rest ih =>
    intro ok
    obtain ⟨es', rest'⟩ := ih ok
    have := less chain
    have found' : look' name = .ok u := by
      rcases r with _ | all
      · cases ok
      · exact keeps name u found fun member =>
          rest.new (List.mem_append_left _ (sub member))
    exact ⟨_, .parent (fun h => new (stack_append_subset sub _ h)) (by omega) next found' rest'⟩

theorem isOk_map {α β : Type} (f : α → β) (r : Except Failure α) : (r.map f).isOk = r.isOk := by
  cases r <;> rfl

mutual

theorem ExpandsNode.fewer {p : Place} {n : Node} {d : Scratch} {es : List Event}
    {r : Except Failure (List Node)} {d' : Scratch} (h : ExpandsNode look limit p n d es r d')
    {active : List String} (keeps : Retains look look' active) (sub : active ⊆ p.active)
    (few : active.length ≤ p.active.length) :
    r.isOk → ∃ es', ExpandsNode look' limit (p.under active) n d es' r d' := by
  match h with
  | .text => exact fun _ => ⟨_, .text⟩
  | .output => exact fun _ => ⟨_, .output⟩
  | .assign => exact fun _ => ⟨_, .assign⟩
  | .inherit => exact fun _ => ⟨_, .inherit⟩
  | .definition => exact fun _ => ⟨_, .definition⟩
  | .block version =>
    rw [isOk_map]
    intro ok
    obtain ⟨es', version'⟩ := version.fewer keeps sub few ok
    exact ⟨es', .block version'⟩
  | .noParent lowest => exact fun _ => ⟨_, .noParent ((p.above_under active).trans lowest)⟩
  | .parent above version =>
    intro ok
    obtain ⟨es', version'⟩ := version.fewer keeps sub few ok
    exact ⟨es', .parent ((p.above_under active).trans above) version'⟩
  | .inclusion merged =>
    intro _
    obtain ⟨es', merged'⟩ := merged.fewer keeps sub few rfl
    exact ⟨es', .inclusion merged'⟩
  | .inclusionFails _ => exact nofun
  | .imports merged taken =>
    intro _
    obtain ⟨es', merged'⟩ := merged.fewer keeps sub few rfl
    exact ⟨es', .imports merged' taken⟩
  | .importsFails _ => exact nofun
  | .loop inner =>
    rw [isOk_map]
    intro ok
    obtain ⟨es', inner'⟩ := inner.fewer keeps sub few ok
    exact ⟨es', .loop inner'⟩
  | .choice inner others =>
    rw [isOk_map]
    intro ok
    obtain ⟨es', inner'⟩ := inner.fewer keeps sub few rfl
    obtain ⟨es'', others'⟩ := others.fewer keeps sub few ok
    exact ⟨_, .choice inner' others'⟩
  | .choiceFails _ => exact nofun

theorem ExpandsRest.fewer {p : Place} {a : Alternative} {d : Scratch} {es : List Event}
    {r : Except Failure Alternative} {d' : Scratch} (h : ExpandsRest look limit p a d es r d')
    {active : List String} (keeps : Retains look look' active) (sub : active ⊆ p.active)
    (few : active.length ≤ p.active.length) :
    r.isOk → ∃ es', ExpandsRest look' limit (p.under active) a d es' r d' := by
  match h with
  | .choice inner others =>
    rw [isOk_map]
    intro ok
    obtain ⟨es', inner'⟩ := inner.fewer keeps sub few rfl
    obtain ⟨es'', others'⟩ := others.fewer keeps sub few ok
    exact ⟨_, .choice inner' others'⟩
  | .choiceFails _ => exact nofun
  | .otherwise inner =>
    rw [isOk_map]
    intro ok
    obtain ⟨es', inner'⟩ := inner.fewer keeps sub few ok
    exact ⟨es', .otherwise inner'⟩

theorem Expands.fewer {p : Place} {ns : List Node} {d : Scratch} {es : List Event}
    {r : Except Failure (List Node)} {d' : Scratch} (h : Expands look limit p ns d es r d')
    {active : List String} (keeps : Retains look look' active) (sub : active ⊆ p.active)
    (few : active.length ≤ p.active.length) :
    r.isOk → ∃ es', Expands look' limit (p.under active) ns d es' r d' := by
  match h with
  | .nil => exact fun _ => ⟨_, .nil⟩
  | .cons first others =>
    rw [isOk_map]
    intro ok
    obtain ⟨es', first'⟩ := first.fewer keeps sub few rfl
    obtain ⟨es'', others'⟩ := others.fewer keeps sub few ok
    exact ⟨_, .cons first' others'⟩
  | .consFails _ => exact nofun

theorem Resolves.fewer {p : Place} {key : BlockKey} {d : Scratch} {es : List Event}
    {r : Except Failure (List Node)} {d' : Scratch} (h : Resolves look limit p key d es r d')
    {active : List String} (keeps : Retains look look' active) (sub : active ⊆ p.active)
    (few : active.length ≤ p.active.length) :
    r.isOk → ∃ es', Resolves look' limit (p.under active) key d es' r d' := by
  match h with
  | .noBlock _ => exact nofun
  | .known named kept => exact fun _ => ⟨_, .known named kept⟩
  | .again _ _ _ => exact nofun
  | .noVersion _ _ _ _ => exact nofun
  | .opens named new outside version inner =>
    intro _
    have sub' : active ⊆ (p.within key).active := sub
    obtain ⟨es', inner'⟩ := inner.fewer keeps sub' few rfl
    exact ⟨es', .opens named new outside version inner'⟩
  | .opensFails _ _ _ _ _ => exact nofun

theorem ExpandsMacros.fewer {p : Place} {ms : Table Macro} {d : Scratch} {es : List Event}
    {r : Except Failure Unit} {d' : Scratch} (h : ExpandsMacros look limit p ms d es r d')
    {active : List String} (keeps : Retains look look' active) (sub : active ⊆ p.active)
    (few : active.length ≤ p.active.length) :
    r.isOk → ∃ es', ExpandsMacros look' limit (p.under active) ms d es' r d' := by
  match h with
  | .nil => exact fun _ => ⟨_, .nil⟩
  | .cons first others =>
    intro ok
    obtain ⟨es', first'⟩ := first.fewer keeps sub few rfl
    obtain ⟨es'', others'⟩ := others.fewer keeps sub few ok
    exact ⟨_, .cons first' others'⟩
  | .consFails _ => exact nofun

theorem Reaches.fewer {before : List String} {name : String} {es : List Event}
    {r : Except Failure Merged} (h : Reaches look limit before name es r) {before' : List String}
    (keeps : Retains look look' before') (sub : before' ⊆ before) (few : before'.length ≤ before.length) :
    r.isOk → ∃ es', Reaches look' limit before' name es' r := by
  match h with
  | .lost _ => exact nofun
  | .merged found merge =>
    intro ok
    obtain ⟨es', merge'⟩ := merge.fewer keeps sub few ok
    have found' := by
      rcases r with _ | m
      · cases ok
      · exact keeps name _ found fun member => merge.new (sub member)
    exact ⟨.found name :: es', .merged found' merge'⟩

/-- What a template is merged into, it is merged into with fewer names in progress, whatever may be
found in their places. -/
theorem Merges.fewer {before : List String} {leaf : Template} {es : List Event}
    {r : Except Failure Merged} (h : Merges look limit before leaf es r) {before' : List String}
    (keeps : Retains look look' before') (sub : before' ⊆ before) (few : before'.length ≤ before.length) :
    r.isOk → ∃ es', Merges look' limit before' leaf es' r := by
  match h with
  | .refused _ => exact nofun
  | .macrosFail _ _ => exact nofun
  | .expands climb macros nodes =>
    have sub' (names : List String) : before' ++ names ⊆ before ++ names :=
      List.append_subset.mpr
        ⟨fun _ h => List.mem_append_left _ (sub h), List.subset_append_right _ _⟩
    have few' (names : List String) : (before' ++ names).length ≤ (before ++ names).length := by
      simp only [List.length_append]
      omega
    rw [isOk_map]
    intro ok
    obtain ⟨es₁, climb'⟩ := climb.fewer keeps sub few rfl
    have keeps' (names : List String) : Retains look look' (before' ++ names) :=
      keeps.mono (List.subset_append_left _ _)
    obtain ⟨es₂, macros'⟩ := macros.fewer (keeps' _) (sub' _) (few' _) rfl
    obtain ⟨es₃, nodes'⟩ := nodes.fewer (keeps' _) (sub' _) (few' _) ok
    exact ⟨_, .expands climb' macros' nodes'⟩

end

end

end

end Stencil.Merging

namespace Stencil.Engine

open Merging

/-- **An engine merges a template as the rules say**, and only loads on the way. -/
theorem mergeTemplate_gives (e : Engine) (t : Template) {look : String → Except Failure Template} :
    Gives e.loader look (e.mergeTemplate t) (Merges look e.limits.nesting [] t) :=
  merge_gives _ [] t (by simp)

theorem merge_gives (e : Engine) (name : String) {look : String → Except Failure Template} :
    Gives e.loader look (e.merge name) (Reaches look e.limits.nesting [] name) :=
  reach_gives (fun t => e.mergeTemplate_gives t) name

theorem mergeTemplate_eq_iff (e : Engine) (t : Template) (s : Session) (r : Except Failure Merged) :
    (e.mergeTemplate t s).1 = r ↔ ∃ es, Merges (s.answer e.loader) e.limits.nesting [] t es r := by
  obtain ⟨es, r', run, h⟩ := e.mergeTemplate_gives t s rfl
  rw [run]
  constructor
  · rintro rfl
    exact ⟨es, h⟩
  · rintro ⟨es', h'⟩
    exact (h.det h').2.symm

theorem merge_eq_iff (e : Engine) (name : String) (s : Session) (r : Except Failure Merged) :
    (e.merge name s).1 = r ↔ ∃ es, Reaches (s.answer e.loader) e.limits.nesting [] name es r := by
  obtain ⟨es, r', run, h⟩ := e.merge_gives name s rfl
  rw [run]
  constructor
  · rintro rfl
    exact ⟨es, h⟩
  · rintro ⟨es', h'⟩
    exact (h.det h').2.symm

/-- Where names lead to the same, a template is merged into the same. -/
theorem mergeTemplate_congr (e : Engine) (t : Template) {s s' : Session}
    (same : s.answer e.loader = s'.answer e.loader) :
    (e.mergeTemplate t s).1 = (e.mergeTemplate t s').1 := by
  obtain ⟨es, merges⟩ := (e.mergeTemplate_eq_iff t s' _).mp rfl
  rw [← same] at merges
  exact (e.mergeTemplate_eq_iff t s _).mpr ⟨es, merges⟩

variable {e : Engine} {s : Session} {t : Template} {name : String} {f : Failure}

theorem load_of_found (found : s.answer e.loader name = .ok t) :
    e.load name s = (.ok t, (e.load name s).2) :=
  Prod.ext ((Session.load_result e.loader name s).trans found) rfl

theorem load_of_lost (missing : s.answer e.loader name = .error f) :
    e.load name s = (.error f, (e.load name s).2) :=
  Prod.ext ((Session.load_result e.loader name s).trans missing) rfl

/-- A name without a template is not merged. -/
theorem merge_of_lost (missing : s.answer e.loader name = .error f) :
    (e.merge name s).1 = .error f :=
  congrArg Prod.fst (Work.bind_error (load_of_lost missing))

theorem merge_of_found (found : s.answer e.loader name = .ok t) :
    e.merge name s = e.mergeTemplate t (e.load name s).2 :=
  Work.bind_ok (load_of_found found)

/-- A name without a template is not rendered. -/
theorem render_of_lost (missing : s.answer e.loader name = .error f) (context : Value) :
    (e.render name context s).1 = .error f :=
  congrArg Prod.fst (Work.bind_error (load_of_lost missing))

/-- A template is merged, the text of what it leads to is made, and errors are attributed. -/
theorem renderTemplate_eq (e : Engine) (t : Template) (context : Value) (s : Session) :
    (e.renderTemplate t context s).1 =
      match (e.mergeTemplate t s).1 with
      | .ok m => (e.renderMerged m context).mapError (Failure.withTemplate t.name)
      | .error f => .error (f.withTemplate t.name) := by
  unfold renderTemplate Work.within Work.bind
  rcases e.mergeTemplate t s with ⟨f | m, s'⟩
  · rfl
  · dsimp only
    cases e.renderMerged m context <;> rfl

/-- The rendering of a template fails as its merge does, or as the text of what it is merged into,
and the failure is attributed. -/
theorem fails_of_renderTemplate {context : Value}
    (h : (e.renderTemplate t context s).1 = .error f) :
    ∃ raised, f = raised.withTemplate t.name ∧ ((e.mergeTemplate t s).1 = .error raised ∨
      ∃ m, (e.mergeTemplate t s).1 = .ok m ∧ e.renderMerged m context = .error raised) := by
  rw [renderTemplate_eq] at h
  cases merging : (e.mergeTemplate t s).1 with
  | error raised =>
    rw [merging] at h
    cases h
    exact ⟨raised, rfl, .inl rfl⟩
  | ok m =>
    rw [merging] at h
    dsimp only at h
    cases failed : e.renderMerged m context with
    | ok _ =>
      rw [failed] at h
      cases h
    | error raised =>
      rw [failed] at h
      cases h
      exact ⟨raised, rfl, .inr ⟨m, rfl, failed⟩⟩

/-- Work on a template fails where the name has none, or as it does on the one that is loaded. -/
theorem fails_of_load {α : Type} {work : Template → Work Session α}
    (h : (Work.bind (e.load name) work s).1 = .error f) : s.answer e.loader name = .error f ∨
      ∃ t, s.answer e.loader name = .ok t ∧ (work t (e.load name s).2).1 = .error f := by
  cases answer : s.answer e.loader name with
  | error g =>
    have lost : (Work.bind (e.load name) work s).1 = .error g :=
      congrArg Prod.fst (Work.bind_error (load_of_lost answer))
    cases lost.symm.trans h
    exact .inl rfl
  | ok t =>
    have run : Work.bind (e.load name) work s = work t (e.load name s).2 :=
      Work.bind_ok (load_of_found answer)
    exact .inr ⟨t, rfl, by rwa [run] at h⟩

/-- The rendering of a source fails where it does not compile, or as the rendering of a template. -/
theorem fails_of_renderString {source : String} {context : Value}
    (h : (e.renderString source name context s).1 = .error f) :
    Template.compile name source = .error f ∨
      ∃ t, Template.compile name source = .ok t ∧ (e.renderTemplate t context s).1 = .error f := by
  unfold renderString at h
  cases compiled : Template.compile name source with
  | error g =>
    rw [compiled] at h
    cases h
    exact .inl rfl
  | ok t =>
    rw [compiled] at h
    exact .inr ⟨t, rfl, h⟩

/-- A rendering is a merge and the text of what it leads to, and its errors are attributed. -/
theorem render_of_found (found : s.answer e.loader name = .ok t) (context : Value) :
    (e.render name context s).1 =
      match (e.merge name s).1 with
      | .ok m => (e.renderMerged m context).mapError (Failure.withTemplate t.name)
      | .error f => .error (f.withTemplate t.name) := by
  have run : e.render name context s = e.renderTemplate t context (e.load name s).2 :=
    Work.bind_ok (load_of_found found)
  rw [run, merge_of_found found]
  exact renderTemplate_eq e t context (e.load name s).2

end Stencil.Engine
