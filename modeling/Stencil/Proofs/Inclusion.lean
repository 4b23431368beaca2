/-
# Include is inlining

An included template is merged by itself, in a draft of its own, and its macros are
taken over afterwards. If it is made of straight nodes only, it has no blocks, no
macros and no ancestors; so all that its merge does is to expand its nodes, and the
macros that it ends with are those of the templates that it includes in turn. The
draft in which straight nodes are expanded does not matter: they add the same
macros to any of them, and it makes no difference whether these fill the gaps of
the draft at once or the gaps of an empty one first. So the nodes of the template
in the place of the tag become what the tag becomes. They are expanded with one
template less in progress, which only helps.

Everything around them is expanded as before. Templates in progress are never
looked up, so it does not matter that the changed template is found under the name
of the old one.

Key definitions: `Merging.Place.Beside`.
Key theorems: `Merging.Expands.straight`, `Merging.Merges.spliced`,
`Merging.Expands.inlined`, `Merging.Merges.inlined`, `Engine.inclusion_is_inlining`.
-/
import Stencil.Proofs.Inlining
import Stencil.Proofs.Determinism
import Stencil.Proofs.Unreachable

namespace Stencil

namespace Scratch

theorem adopt_adopt (d : Scratch) (ms more : Table Macro) :
    (d.adopt ms).adopt more = d.adopt (ms ++ more) := by
  simp [adopt]

/-- Macros may be gathered in an empty draft before they are taken over. -/
theorem adopt_gathered (d : Scratch) (ms : Table Macro) :
    d.adopt (Scratch.empty.adopt ms).macros = d.adopt ms :=
  congrArg (Scratch.mk · d.resolved) (Table.fill_fill d.macros [] ms)

end Scratch

namespace Merging

section

variable {look look' : String → Except Failure Template} {limit : Int}

theorem Expands.append {p : Place} {ns ms : List Node} {d d' d'' : Scratch} {es es' : List Event}
    {made more : List Node} (first : Expands look limit p ns d es (.ok made) d')
    (others : Expands look limit p ms d' es' (.ok more) d'') :
    ∃ es, Expands look limit p (ns ++ ms) d es (.ok (made ++ more)) d'' := by
  induction ns generalizing d es made with
  | nil =>
    cases first
    exact ⟨es', others⟩
  | cons n ns ih =>
    generalize same : Except.ok made = result at first
    cases first with
    | consFails _ => cases same
    | @cons _ _ _ _ _ head _ _ tail _ node rest =>
      rcases tail with _ | tail
      · cases same
      · obtain rfl : made = head ++ tail := Except.ok.inj same
        obtain ⟨_, rest'⟩ := ih rest
        rw [List.append_assoc]
        exact ⟨_, .cons node rest'⟩

/-! ### Straight nodes in another place -/

mutual

theorem ExpandsNode.straight {p : Place} {n : Node} {d : Scratch} {es : List Event}
    {r : Except Failure (List Node)} {d' : Scratch} (h : ExpandsNode look limit p n d es r d')
    (straight : ∀ m ∈ n.walk, m.isStraight) (ok : r.isOk) {q : Place}
    (keeps : Retains look look' q.active) (sub : q.active ⊆ p.active)
    (few : q.active.length ≤ p.active.length) :
    ∃ ms : Table Macro, d' = d.adopt ms ∧
      ∀ c : Scratch, ∃ es', ExpandsNode look' limit q n c es' r (c.adopt ms) := by
  match h with
  | .text => exact ⟨[], rfl, fun _ => ⟨_, .text⟩⟩
  | .output => exact ⟨[], rfl, fun _ => ⟨_, .output⟩⟩
  | .assign => exact ⟨[], rfl, fun _ => ⟨_, .assign⟩⟩
  | .inclusion (m := m) merged =>
    obtain ⟨es', merged'⟩ := merged.fewer keeps sub few rfl
    exact ⟨m.macros, rfl, fun _ => ⟨es', .inclusion merged'⟩⟩
  | .loop inner =>
    rw [isOk_map] at ok
    have body : Straight _ := fun m member => straight m (List.mem_cons_of_mem _ member)
    obtain ⟨ms, rfl, inner'⟩ := inner.straight body ok keeps sub few
    exact ⟨ms, rfl, fun c => (inner' c).imp fun _ => .loop⟩
  | .choice inner others =>
    rw [isOk_map] at ok
    have body : Straight _ := fun m member =>
      straight m (List.mem_cons_of_mem _ (List.mem_append_left _ member))
    have branches := fun m member =>
      straight m (List.mem_cons_of_mem _ (List.mem_append_right _ member))
    obtain ⟨ms, rfl, inner'⟩ := inner.straight body rfl keeps sub few
    obtain ⟨more, rfl, others'⟩ := others.straight branches ok keeps sub few
    refine ⟨ms ++ more, d.adopt_adopt ms more, fun c => ?_⟩
    obtain ⟨_, first⟩ := inner' c
    obtain ⟨_, second⟩ := others' (c.adopt ms)
    rw [← c.adopt_adopt ms more]
    exact ⟨_, .choice first second⟩
  | .inherit => exact nomatch straight _ (mem_walk_self _)
  | .definition => exact nomatch straight _ (mem_walk_self _)
  | .block _ => exact nomatch straight _ (mem_walk_self _)
  | .noParent _ => exact nomatch straight _ (mem_walk_self _)
  | .parent _ _ => exact nomatch straight _ (mem_walk_self _)
  | .imports _ _ => exact nomatch straight _ (mem_walk_self _)
  | .inclusionFails _ => cases ok
  | .importsFails _ => cases ok
  | .choiceFails _ => cases ok

theorem ExpandsRest.straight {p : Place} {a : Alternative} {d : Scratch} {es : List Event}
    {r : Except Failure Alternative} {d' : Scratch} (h : ExpandsRest look limit p a d es r d')
    (straight : ∀ m ∈ a.walk, m.isStraight) (ok : r.isOk) {q : Place}
    (keeps : Retains look look' q.active) (sub : q.active ⊆ p.active)
    (few : q.active.length ≤ p.active.length) :
    ∃ ms : Table Macro, d' = d.adopt ms ∧
      ∀ c : Scratch, ∃ es', ExpandsRest look' limit q a c es' r (c.adopt ms) := by
  match h with
  | .choice inner others =>
    rw [isOk_map] at ok
    have body : Straight _ := fun m member => straight m (List.mem_append_left _ member)
    have branches := fun m member => straight m (List.mem_append_right _ member)
    obtain ⟨ms, rfl, inner'⟩ := inner.straight body rfl keeps sub few
    obtain ⟨more, rfl, others'⟩ := others.straight branches ok keeps sub few
    refine ⟨ms ++ more, d.adopt_adopt ms more, fun c => ?_⟩
    obtain ⟨_, first⟩ := inner' c
    obtain ⟨_, second⟩ := others' (c.adopt ms)
    rw [← c.adopt_adopt ms more]
    exact ⟨_, .choice first second⟩
  | .choiceFails _ => cases ok
  | .otherwise inner =>
    rw [isOk_map] at ok
    obtain ⟨ms, rfl, inner'⟩ := inner.straight straight ok keeps sub few
    exact ⟨ms, rfl, fun c => (inner' c).imp fun _ => .otherwise⟩

/-- **Straight nodes become the same in another place**, with no more templates in progress, and
add the same macros to whatever draft there is. -/
theorem Expands.straight {p : Place} {ns : List Node} {d : Scratch} {es : List Event}
    {r : Except Failure (List Node)} {d' : Scratch} (h : Expands look limit p ns d es r d')
    (straight : Straight ns) (ok : r.isOk) {q : Place}
    (keeps : Retains look look' q.active) (sub : q.active ⊆ p.active)
    (few : q.active.length ≤ p.active.length) :
    ∃ ms : Table Macro, d' = d.adopt ms ∧
      ∀ c : Scratch, ∃ es', Expands look' limit q ns c es' r (c.adopt ms) := by
  match h with
  | .nil => exact ⟨[], rfl, fun _ => ⟨_, .nil⟩⟩
  | .cons first others =>
    rw [isOk_map] at ok
    obtain ⟨ms, rfl, first'⟩ := first.straight straight.head rfl keeps sub few
    obtain ⟨more, rfl, others'⟩ := others.straight straight.tail ok keeps sub few
    refine ⟨ms ++ more, d.adopt_adopt ms more, fun c => ?_⟩
    obtain ⟨_, node⟩ := first' c
    obtain ⟨_, nodes⟩ := others' (c.adopt ms)
    rw [← c.adopt_adopt ms more]
    exact ⟨_, .cons node nodes⟩
  | .consFails _ => cases ok

end

/-- **The nodes of an included template become what the tag becomes**, and add the macros that it
adds. -/
theorem Merges.spliced {before : List String} {t : Template} {es : List Event} {m : Merged}
    (h : Merges look limit before t es (.ok m)) (straight : Straight t.tree) {q : Place}
    (keeps : Retains look look' q.active) (active : q.active = before) (c : Scratch) :
    ∃ es', Expands look' limit q t.tree c es' (.ok m.nodes) (c.adopt m.macros) := by
  have nodes : t.nodes = t.tree := by rw [t.nodes_eq, Template.filter_of_straight straight]
  have last : t.parent = none := by
    rw [t.parent_eq, ← List.append_nil t.tree, Template.findParent_append straight]
    rfl
  have noMacros : Chain.macros [t] = [] := by
    show Table.putAll [] t.macros = []
    rw [t.macros_eq, Template.gatherMacros_notable, straight.notable]
    rfl
  obtain ⟨chain, d, made, d', _, _, _, climb, macros, inner, rfl, -⟩ := h.expanded
  have alone : chain = [t] := by
    cases climb with
    | root _ _ _ => rfl
    | parent _ _ next _ _ => cases last.symm.trans next
  subst alone
  rw [noMacros] at macros
  cases macros
  have content : content [t] = t.tree := by
    show [] ++ (t.nodes ++ []) = t.tree
    rw [nodes, List.append_nil, List.nil_append]
  rw [content] at inner
  have sub : q.active ⊆ (Place.ofChain before [t]).active :=
    active ▸ List.subset_append_left before [t.name]
  have few : q.active.length ≤ (Place.ofChain before [t]).active.length := by
    rw [active]
    show before.length ≤ (before ++ [t.name]).length
    simp
  obtain ⟨ms, rfl, inner'⟩ := inner.straight straight rfl keeps sub few
  have inner' := inner' c
  rw [← c.adopt_gathered ms] at inner'
  exact inner'

/-! ### Around the nodes

Two places whose versions differ by nodes in the place of includes. What is kept
in the draft is the same for both. -/

/-- A place beside another one, in which the nodes of a template stand in the place of some includes
of it. The names of templates in progress may lead to something else there. -/
structure Place.Beside (p : Place) (look look' : String → Except Failure Template) (name : String)
    (t : Template) (q : Place) : Prop where
  found : look name = .ok t
  straight : Straight t.tree
  keeps : Retains look look' p.active
  active : q.active = p.active
  defined : q.defined = p.defined
  enclosing : q.enclosing = p.enclosing
  versions : ∀ other, Option.Rel (List.Forall₂ (Inlined name t.tree))
    (Table.find? other p.versions) (Table.find? other q.versions)

namespace Place.Beside

variable {name : String} {t : Template} {p q : Place} (h : p.Beside look look' name t q)
include h

theorem above : q.above = p.above := by
  obtain ⟨_, _, _, enclosing⟩ := p
  obtain ⟨_, _, _, enclosing'⟩ := q
  obtain rfl : enclosing' = enclosing := h.enclosing
  rcases enclosing' with _ | ⟨⟨_, _ | _⟩, _⟩ <;> rfl

/-- The version nearest to the leaf has the same place among the versions. -/
theorem top (other : String) : q.top other = p.top other := by
  have versions := h.versions other
  unfold Place.top
  generalize Table.find? other p.versions = found at versions ⊢
  generalize Table.find? other q.versions = found' at versions ⊢
  cases versions with
  | none => rfl
  | some bodies => exact congrArg (fun n => (other, n - 1)) bodies.length_eq.symm

theorem within (key : BlockKey) : (p.within key).Beside look look' name t (q.within key) :=
  { h with enclosing := congrArg (key :: ·) h.enclosing }

theorem named {other : String} {bodies : List (List Node)}
    (found : Table.find? other p.versions = some bodies) :
    ∃ bodies', Table.find? other q.versions = some bodies' ∧
      List.Forall₂ (Inlined name t.tree) bodies bodies' := by
  have versions := h.versions other
  rw [found] at versions
  generalize Table.find? other q.versions = found' at versions ⊢
  cases versions with
  | some related => exact ⟨_, rfl, related⟩

end Place.Beside

theorem exists_of_getElem? {α β : Type} {R : α → β → Prop} {as : List α} {bs : List β}
    (h : List.Forall₂ R as bs) {i : Nat} {a : α} (there : as[i]? = some a) :
    ∃ b, bs[i]? = some b ∧ R a b := by
  obtain ⟨inside, rfl⟩ := List.getElem?_eq_some_iff.mp there
  have inside' : i < bs.length := h.length_eq ▸ inside
  exact ⟨bs[i], List.getElem?_eq_getElem inside', h.get inside inside'⟩

section

variable {name : String} {t : Template}

/-- A tag that leads outside leads to the same in the place beside. -/
theorem Reaches.beside {p q : Place} (beside : p.Beside look look' name t q) {other : String}
    {es : List Event} {m : Merged} (h : Reaches look limit p.active other es (.ok m)) :
    ∃ es', Reaches look' limit q.active other es' (.ok m) := by
  rw [beside.active]
  exact h.fewer beside.keeps (List.Subset.refl _) (Nat.le_refl _) rfl

mutual

theorem ExpandsNode.inlined {p q : Place} (beside : p.Beside look look' name t q)
    {n n' : Node} {d : Scratch} {es : List Event}
    {r : Except Failure (List Node)} {d' : Scratch} (h : ExpandsNode look limit p n d es r d')
    (node : InlinedNode name t.tree n n') (ok : r.isOk) :
    ∃ es', ExpandsNode look' limit q n' d es' r d' := by
  match h with
  | .text =>
    cases node
    exact ⟨_, .text⟩
  | .output =>
    cases node
    exact ⟨_, .output⟩
  | .assign =>
    cases node
    exact ⟨_, .assign⟩
  | .inherit =>
    cases node
    exact ⟨_, .inherit⟩
  | .definition =>
    obtain ⟨_, rfl, -⟩ := node.of_definition
    exact ⟨_, .definition⟩
  | .block version =>
    rw [isOk_map] at ok
    obtain ⟨_, rfl, -⟩ := node.of_block
    obtain ⟨es', version'⟩ := version.inlined beside ok
    rw [← beside.top] at version'
    exact ⟨es', .block version'⟩
  | .noParent lowest =>
    cases node
    exact ⟨_, .noParent (beside.above.trans lowest)⟩
  | .parent above version =>
    cases node
    obtain ⟨es', version'⟩ := version.inlined beside ok
    exact ⟨es', .parent (beside.above.trans above) version'⟩
  | .inclusion merged =>
    cases node
    obtain ⟨es', merged'⟩ := merged.beside beside
    exact ⟨es', .inclusion merged'⟩
  | .imports merged taken =>
    cases node
    obtain ⟨es', merged'⟩ := merged.beside beside
    rw [← beside.defined] at taken
    exact ⟨es', .imports merged' taken⟩
  | .loop inner =>
    rw [isOk_map] at ok
    obtain ⟨_, rfl, nodes⟩ := node.of_loop
    obtain ⟨es', inner'⟩ := inner.inlined beside nodes ok
    exact ⟨es', .loop inner'⟩
  | .choice inner others =>
    rw [isOk_map] at ok
    obtain ⟨_, _, rfl, nodes, rest⟩ := node.of_choice
    obtain ⟨_, inner'⟩ := inner.inlined beside nodes rfl
    obtain ⟨_, others'⟩ := others.inlined beside rest ok
    exact ⟨_, .choice inner' others'⟩
  | .inclusionFails _ => cases ok
  | .importsFails _ => cases ok
  | .choiceFails _ => cases ok

theorem ExpandsRest.inlined {p q : Place} (beside : p.Beside look look' name t q)
    {a a' : Alternative} {d : Scratch} {es : List Event}
    {r : Except Failure Alternative} {d' : Scratch} (h : ExpandsRest look limit p a d es r d')
    (rest : InlinedRest name t.tree a a') (ok : r.isOk) :
    ∃ es', ExpandsRest look' limit q a' d es' r d' := by
  match h with
  | .choice inner others =>
    rw [isOk_map] at ok
    cases rest with
    | choice nodes rest =>
      obtain ⟨_, inner'⟩ := inner.inlined beside nodes rfl
      obtain ⟨_, others'⟩ := others.inlined beside rest ok
      exact ⟨_, .choice inner' others'⟩
  | .choiceFails _ => cases ok
  | .otherwise inner =>
    rw [isOk_map] at ok
    cases rest with
    | otherwise nodes =>
      obtain ⟨es', inner'⟩ := inner.inlined beside nodes ok
      exact ⟨es', .otherwise inner'⟩

/-- **Nodes become the same with the nodes of a template in the place of its includes.** -/
theorem Expands.inlined {p q : Place} (beside : p.Beside look look' name t q)
    {ns ns' : List Node} {d : Scratch} {es : List Event}
    {r : Except Failure (List Node)} {d' : Scratch} (h : Expands look limit p ns d es r d')
    (nodes : Inlined name t.tree ns ns') (ok : r.isOk) :
    ∃ es', Expands look' limit q ns' d es' r d' := by
  match h with
  | .nil =>
    cases nodes
    exact ⟨_, .nil⟩
  | .cons (r := r) first others =>
    rw [isOk_map] at ok
    cases nodes with
    | cons node nodes =>
      obtain ⟨_, first'⟩ := first.inlined beside node rfl
      obtain ⟨_, others'⟩ := others.inlined beside nodes ok
      exact ⟨_, .cons first' others'⟩
    | here nodes =>
      obtain ⟨_, others'⟩ := others.inlined beside nodes ok
      rcases r with _ | more
      · cases ok
      · cases first with
        | inclusion merged =>
          cases merged with
          | merged found' merge =>
            cases beside.found.symm.trans found'
            have keeps : Retains look look' q.active := beside.active ▸ beside.keeps
            obtain ⟨_, spliced⟩ := merge.spliced beside.straight keeps beside.active d
            exact spliced.append others'
  | .consFails _ => cases ok

theorem Resolves.inlined {p q : Place} (beside : p.Beside look look' name t q)
    {key : BlockKey} {d : Scratch} {es : List Event}
    {r : Except Failure (List Node)} {d' : Scratch} (h : Resolves look limit p key d es r d')
    (ok : r.isOk) : ∃ es', Resolves look' limit q key d es' r d' := by
  match h with
  | .known named kept =>
    obtain ⟨_, named', -⟩ := beside.named named
    exact ⟨_, .known named' kept⟩
  | .opens named new outside version inner =>
    obtain ⟨bodies', named', related⟩ := beside.named named
    obtain ⟨body', version', nodes⟩ := exists_of_getElem? related version
    have outside' : key ∉ q.enclosing := beside.enclosing ▸ outside
    obtain ⟨es', inner'⟩ := inner.inlined (beside.within key) nodes rfl
    exact ⟨es', .opens named' new outside' version' inner'⟩
  | .noBlock _ => cases ok
  | .again _ _ _ => cases ok
  | .noVersion _ _ _ _ => cases ok
  | .opensFails _ _ _ _ _ => cases ok

end

theorem ExpandsMacros.inlined {p q : Place} (beside : p.Beside look look' name t q)
    {ms ms' : Table Macro} (tables : Table.Matched (InlinedMacro name t.tree) ms ms')
    {d : Scratch} {es : List Event} {r : Except Failure Unit} {d' : Scratch}
    (h : ExpandsMacros look limit p ms d es r d') (ok : r.isOk) :
    ∃ es', ExpandsMacros look' limit q ms' d es' r d' := by
  induction tables generalizing d es with
  | nil =>
    cases h
    exact ⟨_, .nil⟩
  | @cons m m' _ _ first _ ih =>
    obtain ⟨_, _⟩ := m
    obtain ⟨_, _⟩ := m'
    obtain ⟨rfl, parameters, body⟩ := first
    cases h with
    | cons inner others =>
      obtain ⟨_, inner'⟩ := inner.inlined beside body rfl
      obtain ⟨_, others'⟩ := ih others
      rw [← parameters] at others'
      exact ⟨_, .cons inner' others'⟩
    | consFails _ => cases ok

/-! ### The changed template -/

/-- A chain is loaded with another leaf, or another template in its middle, of the same name and
with the same parent. -/
theorem Climbs.with_leaf {before : List String} {leaf : String} {chain : List Template}
    {u : Template} {es : List Event} {r : Except Failure (List Template)}
    (h : Climbs look limit before leaf chain u es r) (ok : r.isOk) {chain' : List Template}
    {u' : Template} (names : chain'.map Template.name = chain.map Template.name)
    (same : u'.name = u.name) (parent : u'.parent = u.parent)
    (keeps : Retains look look' (stack before (u :: chain))) :
    ∃ up, r = .ok (up ++ u :: chain) ∧ (u.parent = none → up = []) ∧
      ∃ es', Climbs look' limit before leaf chain' u' es' (.ok (up ++ u' :: chain')) := by
  induction h generalizing chain' u' with
  | circular _ => cases ok
  | tooDeep _ _ => cases ok
  | lost _ _ _ _ => cases ok
  | @root chain u new fits last =>
    have piled : stack before chain' = stack before chain := by
      rw [stack, List.map_reverse, names, ← List.map_reverse]
      rfl
    refine ⟨[], rfl, fun _ => rfl, _, .root ?_ ?_ (parent.trans last)⟩
    · rwa [same, piled]
    · rwa [piled]
  | @parent chain u name v es r new fits next found rest ih =>
    have piled : stack before chain' = stack before chain := by
      rw [stack, List.map_reverse, names, ← List.map_reverse]
      rfl
    have longer : (u' :: chain').map Template.name = (u :: chain).map Template.name := by
      rw [List.map_cons, List.map_cons, names, same]
    have above : stack before (u :: chain) ⊆ stack before (v :: u :: chain) := by
      intro other member
      simp only [stack, List.reverse_cons, List.map_append, List.mem_append] at member ⊢
      tauto
    obtain ⟨up, rfl, -, es', rest'⟩ := ih ok longer rfl rfl (keeps.mono above)
    have found' : look' name = .ok v := keeps name v found rest.new
    refine ⟨up ++ [v], by simp, fun last => absurd (last.symm.trans next) (by simp), ?_⟩
    rw [List.append_assoc]
    exact ⟨_, .parent (by rwa [same, piled]) (by rwa [piled]) (parent.trans next) found' rest'⟩

/-- **A template with the nodes of an included one in the place of its tags is merged into the
same.** -/
theorem Merges.inlined {before : List String} {page page' : Template} {es : List Event} {m : Merged}
    (h : Merges look limit before page es (.ok m)) (found : look name = .ok t)
    (straight : Straight t.tree) (inlines : page.Inlines name t.tree page')
    (keeps : Retains look look' [page.name]) : ∃ es', Merges look' limit before page' es' (.ok m) := by
  obtain ⟨chain, _, _, _, _, _, _, climb, macros, nodes, rfl, -⟩ := h.expanded
  have started : [page.name] ⊆ stack before [page] := by simp [stack]
  obtain ⟨up, found', alone, _, climb'⟩ := climb.with_leaf rfl rfl inlines.same
    (inlines.parent straight) (keeps.mono started)
  obtain rfl : chain = up ++ [page] := Except.ok.inj found'
  have leaf : [page.name] ⊆ (Place.ofChain before (up ++ [page])).active := by
    simp [Place.ofChain]
  have names : (up ++ [page']).map Template.name = (up ++ [page]).map Template.name := by
    simp [inlines.same]
  have tables := Chain.matched_macros straight inlines up
  have beside : (Place.ofChain before (up ++ [page])).Beside look look' name t
      (Place.ofChain before (up ++ [page'])) :=
    { found, straight, keeps := keeps.mono leaf
      active := congrArg (before ++ ·) names
      defined := tables.names.symm
      enclosing := rfl
      versions := Chain.matched_versions straight inlines up }
  rw [← inlines.same] at climb'
  obtain ⟨_, macros'⟩ := macros.inlined beside tables rfl
  obtain ⟨_, nodes'⟩ := nodes.inlined beside (inlined_content straight inlines alone) rfl
  exact ⟨_, .expands climb' macros' nodes'⟩

end

end

end Merging

namespace Engine

open Merging

variable {e : Engine} {loader : Loader} {s s' : Session} {page page' included : Template}

theorem mergeTemplate_of_inlines (built : s.Built)
    (found : s.answer e.loader included.name = .ok included) (straight : Straight included.tree)
    (inlines : page.Inlines included.name included.tree page')
    (others : ∀ other t, other ≠ page.name → s.answer e.loader other = .ok t →
      s'.answer loader other = .ok t) {m : Merged} (merged : (e.mergeTemplate page s).1 = .ok m) :
    ({ e with loader }.mergeTemplate page' s').1 = .ok m := by
  obtain ⟨_, merges⟩ := (e.mergeTemplate_eq_iff page s _).mp merged
  have keeps : Retains (s.answer e.loader) (s'.answer loader) [page.name] := by
    intro other t answer new
    have other_ne : other ≠ page.name := fun same =>
      new (List.mem_singleton.mpr ((built.name_of_answer answer).trans same))
    exact others other t other_ne answer
  exact ({ e with loader }.mergeTemplate_eq_iff page' s' _).mpr
    (merges.inlined found straight inlines keeps)

/-- **Include is inlining.** Where the nodes of a template that is made of straight nodes stand in the
place of some of its includes, a template is merged into the same nodes and macros as before, if it
was merged at all, and so its text for any context is the same, or the same error. The two templates
may be found under the same name, in sessions of their own in which the other names lead to the
same. -/
theorem inclusion_is_inlining (built : s.Built)
    (found : s.answer e.loader included.name = .ok included) (straight : Straight included.tree)
    (inlines : page.Inlines included.name included.tree page')
    (others : ∀ other t, other ≠ page.name → s.answer e.loader other = .ok t →
      s'.answer loader other = .ok t) {m : Merged} (merged : (e.mergeTemplate page s).1 = .ok m) :
    ({ e with loader }.mergeTemplate page' s').1 = .ok m ∧
      (∀ context, ({ e with loader }.renderTemplate page' context s').1 =
        (e.renderTemplate page context s).1) ∧
      (s.answer e.loader page.name = .ok page → s'.answer loader page.name = .ok page' →
        (e.merge page.name s).1 = .ok m ∧ ({ e with loader }.merge page.name s').1 = .ok m ∧
          ∀ context, ({ e with loader }.render page.name context s').1 =
            (e.render page.name context s).1) := by
  have merged' : ({ e with loader }.mergeTemplate page' s').1 = .ok m :=
    mergeTemplate_of_inlines built found straight inlines others merged
  refine ⟨merged', fun context => ?_, fun here here' => ?_⟩
  · rw [renderTemplate_eq, renderTemplate_eq, merged, merged', inlines.same]
    rfl
  · have byName : (e.merge page.name s).1 = .ok m := by
      rw [merge_of_found here]
      exact (e.mergeTemplate_congr page (Session.answer_load e.loader page.name s)).trans merged
    have byName' : ({ e with loader }.merge page.name s').1 = .ok m := by
      rw [merge_of_found (e := { e with loader }) here']
      exact ({ e with loader }.mergeTemplate_congr page'
        (Session.answer_load loader page.name s')).trans merged'
    refine ⟨byName, byName', fun context => ?_⟩
    have render := render_of_found here context
    have render' := render_of_found (e := { e with loader }) here' context
    rw [render, render', byName, byName', inlines.same]
    rfl

/-- A template that runs over rows and includes another one for each. -/
def listing : Template :=
  .ofNodes "list" [.loop "x" (.path "xs") none [.inclusion "row"]]

/-- A row that brings a macro. -/
def row : Template :=
  .ofNodes "row" [.definition "m" [] [.text "M"], .output (.call "m" [])]

/-- An engine that has them. -/
def listings : Engine :=
  ⟨.ofTable [("list", "\x7b% for x in xs %\x7d\x7b% include \"row\" %\x7d\x7b% endfor %\x7d"),
    ("row", "\x7b% macro m() %\x7dM\x7b% endmacro %\x7d\x7b\x7b m() \x7d\x7d")], [], [], {}⟩

/-- The session in which it has loaded them. -/
def listed : Session :=
  ⟨[("list", listing), ("row", row)], ["row", "list"]⟩

/-- A page that includes the list, with the tag in a block as the page has it, or with the nodes of
the list there. -/
def framed (body : List Node) : Template :=
  .ofNodes "page" [.block "b" (.text "(" :: body), .text ")"]

theorem inclusion_is_inlining_page :
    listed.Built ∧ listed.answer listings.loader "list" = .ok listing ∧ Straight listing.tree ∧
      (framed [.inclusion "list"]).Inlines "list" listing.tree (framed listing.tree) ∧
      ∃ m, (listings.mergeTemplate (framed [.inclusion "list"]) listed).1 = .ok m ∧
        (listings.mergeTemplate (framed listing.tree) listed).1 = .ok m ∧
          m.macros = [("m", .mk [] [.text "M"] none)] ∧
            ∀ context, (listings.renderTemplate (framed listing.tree) context listed).1 =
              (listings.renderTemplate (framed [.inclusion "list"]) context listed).1 := by
  have first : (Session.load listings.loader "list" .fresh).2 = ⟨[("list", listing)], ["list"]⟩ := by
    decide +kernel
  have second : (Session.load listings.loader "row" ⟨[("list", listing)], ["list"]⟩).2 = listed := by
    decide +kernel
  have built : listed.Built := second ▸ first ▸ .load (.load .fresh _ _) _ _
  have found : listed.answer listings.loader "list" = .ok listing := rfl
  have straight : Straight listing.tree := by decide
  have inlines : (framed [.inclusion "list"]).Inlines "list" listing.tree (framed listing.tree) :=
    ⟨rfl, .cons (.block (.cons .same (.here .nil))) (.refl _), fun further => absurd rfl further⟩
  have merged : (listings.mergeTemplate (framed [.inclusion "list"]) listed).1 =
      .ok ⟨[.block "b" [.text "(", .loop "x" (.path "xs") none [.output (.call "m" [])]],
        .text ")"], [("m", .mk [] [.text "M"] none)]⟩ := by decide +kernel
  have same := inclusion_is_inlining built found straight inlines (fun _ _ _ answer => answer) merged
  exact ⟨built, found, straight, inlines, _, merged, same.1, rfl, same.2.1⟩

end Engine

end Stencil
