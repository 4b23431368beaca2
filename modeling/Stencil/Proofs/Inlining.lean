/-
# Nodes in the place of an include

An include of a template may stand at any place of a tree, and the nodes of the
template may be put in its place. What else there is in the tree stays: the blocks
and the macros of the tree are found under the same names in the same order, and
their bodies differ by such replacements again, as long as the nodes that are put
in bring none of their own. A chain whose leaf is changed so has the same names,
and its versions, its macros and its content differ by such replacements.

Nodes that are put in at the top level of a template that extends another one
would fall apart, as text there is dropped and assignments go before the layout.
So the nodes there have to stay as many as they were.

Key definitions: `Node.isStraight`, `Straight`, `Inlined`, `Template.Inlines`.
Key theorems: `Inlined.notable`, `Template.Inlines.macros`, `Chain.matched_macros`,
`Merging.inlined_content`.
-/
import Stencil.Proofs.Blocks
import Stencil.Proofs.Tables

namespace Stencil

/-- Whether a node is neither a block nor a parent mark, and has to do with neither macros nor the
chain of its template. -/
def Node.isStraight : Node → Bool
  | .text _ => true
  | .output _ => true
  | .loop _ _ _ _ => true
  | .choice _ _ _ => true
  | .assign _ _ => true
  | .inclusion _ => true
  | _ => false

/-- All nodes are straight, at whatever level they stand. -/
def Straight (ns : List Node) : Prop :=
  ∀ n ∈ walkAll ns, n.isStraight

instance (ns : List Node) : Decidable (Straight ns) :=
  inferInstanceAs (Decidable (∀ n ∈ walkAll ns, n.isStraight))

/-- Whether a node is gathered by the template that it stands in. -/
def Node.isNotable : Node → Bool
  | .block _ _ => true
  | .definition _ _ _ => true
  | _ => false

mutual

/-- A node with nodes in the place of some includes in its bodies. -/
inductive InlinedNode (name : String) (body : List Node) : Node → Node → Prop
  | same {n} : InlinedNode name body n n
  | loop {item source filter ns ms} (inner : Inlined name body ns ms) :
    InlinedNode name body (.loop item source filter ns) (.loop item source filter ms)
  | choice {c ns ms a b} (inner : Inlined name body ns ms) (others : InlinedRest name body a b) :
    InlinedNode name body (.choice c ns a) (.choice c ms b)
  | block {n ns ms} (inner : Inlined name body ns ms) :
    InlinedNode name body (.block n ns) (.block n ms)
  | definition {n parameters ns ms} (inner : Inlined name body ns ms) :
    InlinedNode name body (.definition n parameters ns) (.definition n parameters ms)

/-- What is left of a choice with nodes in the place of some includes. -/
inductive InlinedRest (name : String) (body : List Node) : Alternative → Alternative → Prop
  | choice {c ns ms a b} (inner : Inlined name body ns ms) (others : InlinedRest name body a b) :
    InlinedRest name body (.choice c ns a) (.choice c ms b)
  | otherwise {ns ms} (inner : Inlined name body ns ms) :
    InlinedRest name body (.otherwise ns) (.otherwise ms)

/-- Nodes with `body` in the place of some of the includes of the template with a name. -/
inductive Inlined (name : String) (body : List Node) : List Node → List Node → Prop
  | nil : Inlined name body [] []
  | here {ns ms} (others : Inlined name body ns ms) :
    Inlined name body (.inclusion name :: ns) (body ++ ms)
  | cons {n m ns ms} (first : InlinedNode name body n m) (others : Inlined name body ns ms) :
    Inlined name body (n :: ns) (m :: ms)

end

section

variable {name : String} {body : List Node}

theorem Inlined.refl (ns : List Node) : Inlined name body ns ns := by
  induction ns with
  | nil => exact .nil
  | cons _ _ ih => exact .cons .same ih

theorem InlinedRest.refl (a : Alternative) : InlinedRest name body a a := by
  cases a with
  | choice _ ns rest => exact .choice (.refl ns) (refl rest)
  | otherwise ns => exact .otherwise (.refl ns)

theorem Inlined.append {ns ms ns' ms' : List Node} (h : Inlined name body ns ms)
    (h' : Inlined name body ns' ms') : Inlined name body (ns ++ ns') (ms ++ ms') := by
  induction ns generalizing ms with
  | nil =>
    cases h
    exact h'
  | cons n ns ih =>
    cases h with
    | here others =>
      rw [List.append_assoc]
      exact .here (ih others)
    | cons first others => exact .cons first (ih others)

/-- Nodes that stay as many as they were. -/
theorem Inlined.of_forall₂ {ns ms : List Node} (h : List.Forall₂ (InlinedNode name body) ns ms) :
    Inlined name body ns ms := by
  induction h with
  | nil => exact .nil
  | cons first _ ih => exact .cons first ih

/-! ### What a node may become -/

theorem InlinedNode.of_loop {item : String} {source : Expr} {filter : Option FilterSpec}
    {ns : List Node} {m : Node} (h : InlinedNode name body (.loop item source filter ns) m) :
    ∃ ms, m = .loop item source filter ms ∧ Inlined name body ns ms := by
  cases h with
  | same => exact ⟨ns, rfl, .refl ns⟩
  | loop inner => exact ⟨_, rfl, inner⟩

theorem InlinedNode.of_choice {c : Condition} {ns : List Node} {a : Alternative} {m : Node}
    (h : InlinedNode name body (.choice c ns a) m) :
    ∃ ms b, m = .choice c ms b ∧ Inlined name body ns ms ∧ InlinedRest name body a b := by
  cases h with
  | same => exact ⟨ns, a, rfl, .refl ns, .refl a⟩
  | choice inner others => exact ⟨_, _, rfl, inner, others⟩

theorem InlinedNode.of_block {n : String} {ns : List Node} {m : Node}
    (h : InlinedNode name body (.block n ns) m) :
    ∃ ms, m = .block n ms ∧ Inlined name body ns ms := by
  cases h with
  | same => exact ⟨ns, rfl, .refl ns⟩
  | block inner => exact ⟨_, rfl, inner⟩

theorem InlinedNode.of_definition {n : String} {parameters : List String} {ns : List Node} {m : Node}
    (h : InlinedNode name body (.definition n parameters ns) m) :
    ∃ ms, m = .definition n parameters ms ∧ Inlined name body ns ms := by
  cases h with
  | same => exact ⟨ns, rfl, .refl ns⟩
  | definition inner => exact ⟨_, rfl, inner⟩

/-! ### What a template gathers

Straight nodes bring nothing that is gathered, so what is gathered stands in the
same order before and after. -/

theorem Straight.head {n : Node} {ns : List Node} (h : Straight (n :: ns)) :
    ∀ m ∈ n.walk, m.isStraight :=
  fun m member => h m (List.mem_append_left _ member)

theorem Straight.tail {n : Node} {ns : List Node} (h : Straight (n :: ns)) : Straight ns :=
  fun m member => h m (List.mem_append_right _ member)

/-- What is gathered among nodes at every level. -/
def notable (ns : List Node) : List Node :=
  (walkAll ns).filter Node.isNotable

theorem notable_cons (n : Node) (ns : List Node) :
    notable (n :: ns) = n.walk.filter Node.isNotable ++ notable ns :=
  List.filter_append ..

theorem notable_append (ns ms : List Node) : notable (ns ++ ms) = notable ns ++ notable ms := by
  rw [notable, walkAll_append, List.filter_append]
  rfl

theorem Straight.notable {ns : List Node} (h : Straight ns) : notable ns = [] := by
  refine List.filter_eq_nil_iff.mpr fun n member => ?_
  have straight := h n member
  cases n <;> simp_all [Node.isStraight, Node.isNotable]

end

section

variable {name : String} {body : List Node}

mutual

theorem InlinedNode.notable (straight : Straight body) {n m : Node}
    (h : InlinedNode name body n m) :
    List.Forall₂ (InlinedNode name body) (n.walk.filter Node.isNotable)
      (m.walk.filter Node.isNotable) := by
  match h with
  | .same => exact List.forall₂_same.mpr fun _ _ => .same
  | .loop inner => exact inner.notable straight
  | .choice inner others =>
    simp only [Node.walk, List.cons_append, List.filter_cons, List.filter_append, Node.isNotable]
    exact List.rel_append (inner.notable straight) (others.notable straight)
  | .block inner => exact .cons (.block inner) (inner.notable straight)
  | .definition inner => exact .cons (.definition inner) (inner.notable straight)

theorem InlinedRest.notable (straight : Straight body) {a b : Alternative}
    (h : InlinedRest name body a b) :
    List.Forall₂ (InlinedNode name body) (a.walk.filter Node.isNotable)
      (b.walk.filter Node.isNotable) := by
  match h with
  | .choice inner others =>
    simp only [Alternative.walk, List.filter_append]
    exact List.rel_append (inner.notable straight) (others.notable straight)
  | .otherwise inner => exact inner.notable straight

/-- **The blocks and macros of a tree stay in their order**, with nodes in the place of includes in
their bodies. -/
theorem Inlined.notable (straight : Straight body) {ns ms : List Node}
    (h : Inlined name body ns ms) :
    List.Forall₂ (InlinedNode name body) (notable ns) (notable ms) := by
  match h with
  | .nil => exact .nil
  | .here others =>
    rw [notable_append, straight.notable]
    exact others.notable straight
  | .cons first others =>
    rw [notable_cons, notable_cons]
    exact List.rel_append (first.notable straight) (others.notable straight)

end

/-! ### Templates -/

/-- A macro with nodes in the place of some includes in its body. -/
structure InlinedMacro (name : String) (body : List Node) (m m' : Macro) : Prop where
  parameters : m'.parameters = m.parameters
  body : Inlined name body m.body m'.body

theorem InlinedMacro.refl (m : Macro) : InlinedMacro name body m m :=
  ⟨rfl, .refl m.body⟩

namespace Template

theorem findSome?_notable (n : String) (ns : List Node) :
    (walkAll ns).findSome? (Node.body? n) = (notable ns).findSome? (Node.body? n) := by
  unfold notable
  induction walkAll ns with
  | nil => rfl
  | cons m ms ih =>
    rw [List.findSome?_cons, ih]
    cases m <;> rfl

theorem gatherMacros_notable (ns : List Node) :
    gatherMacros (walkAll ns) = gatherMacros (notable ns) := by
  have passes (t : Table Macro) (n : Node) :
      addMacro t n = if n.isNotable then addMacro t n else t := by
    cases n <;> rfl
  unfold gatherMacros notable
  rw [List.foldl_filter]
  exact List.foldl_ext _ _ [] fun t n _ => passes t n

theorem findParent_append {ns : List Node} (straight : Straight ns) (ms : List Node) :
    findParent (ns ++ ms) = findParent ms := by
  induction ns with
  | nil => rfl
  | cons n ns ih =>
    have head := straight.head n (mem_walk_self n)
    cases n <;> first
      | exact ih straight.tail
      | cases head

theorem filter_of_straight {ns : List Node} (straight : Straight ns) :
    ns.filter (fun n => !isDefinition n) = ns := by
  refine List.filter_eq_self.mpr fun n member => ?_
  have plain := straight n (mem_walkAll.mpr ⟨n, member, mem_walk_self n⟩)
  cases n <;> first
    | rfl
    | cases plain

end Template

open Template (findParent isDefinition addMacro gatherMacros)

theorem InlinedNode.findParent {n m : Node} (h : InlinedNode name body n m) {ns ms : List Node}
    (rest : findParent ms = findParent ns) : findParent (m :: ms) = findParent (n :: ns) := by
  cases h with
  | same => cases n <;> first
    | exact rest
    | rfl
  | _ => exact rest

theorem InlinedNode.isDefinition {n m : Node} (h : InlinedNode name body n m) :
    isDefinition m = isDefinition n := by
  cases h <;> rfl

theorem InlinedNode.side {n m : Node} (h : InlinedNode name body n m) (placed : List String) :
    Chain.side placed m = Chain.side placed n := by
  cases h <;> rfl

theorem InlinedNode.body? {n m : Node} (h : InlinedNode name body n m) (other : String) :
    Option.Rel (Inlined name body) (n.body? other) (m.body? other) := by
  cases h with
  | same =>
    cases n.body? other with
    | none => exact .none
    | some ns => exact .some (.refl ns)
  | @block n ns ms inner =>
    show Option.Rel _ (if n = other then some ns else none) (if n = other then some ms else none)
    by_cases same : n = other
    · rw [if_pos same, if_pos same]
      exact .some inner
    · rw [if_neg same, if_neg same]
      exact .none
  | _ => exact .none

theorem Inlined.findParent (straight : Straight body) {ns ms : List Node}
    (h : Inlined name body ns ms) : findParent ms = findParent ns := by
  induction ns generalizing ms with
  | nil =>
    cases h
    rfl
  | cons n ns ih =>
    cases h with
    | here others =>
      rw [Template.findParent_append straight]
      exact ih others
    | cons first others => exact first.findParent (ih others)

/-- The definitions of macros are taken out of both. -/
theorem Inlined.nodes (straight : Straight body) {ns ms : List Node} (h : Inlined name body ns ms) :
    Inlined name body (ns.filter fun n => !isDefinition n) (ms.filter fun n => !isDefinition n) := by
  induction ns generalizing ms with
  | nil =>
    cases h
    exact .nil
  | cons n ns ih =>
    cases h with
    | here others =>
      rw [List.filter_append, Template.filter_of_straight straight]
      exact .here (ih others)
    | cons first others =>
      rw [List.filter_cons, List.filter_cons, first.isDefinition]
      cases isDefinition n
      · exact .cons first (ih others)
      · exact ih others

/-- The nodes of a kind that inlining does not change. -/
theorem forall₂_filter {p : Node → Bool} (kind : ∀ n m, InlinedNode name body n m → p m = p n)
    {ns ms : List Node} (h : List.Forall₂ (InlinedNode name body) ns ms) :
    List.Forall₂ (InlinedNode name body) (ns.filter p) (ms.filter p) := by
  induction h with
  | nil => exact .nil
  | @cons n m ns ms first _ ih =>
    rw [List.filter_cons, List.filter_cons, kind n m first]
    cases p n
    · exact ih
    · exact .cons first ih

theorem findSome?_body? (other : String) {ns ms : List Node}
    (h : List.Forall₂ (InlinedNode name body) ns ms) :
    Option.Rel (Inlined name body) (ns.findSome? (Node.body? other))
      (ms.findSome? (Node.body? other)) := by
  induction h with
  | nil => exact .none
  | @cons n m ns ms first _ ih =>
    have related := first.body? other
    rw [List.findSome?_cons, List.findSome?_cons]
    generalize n.body? other = a at related ⊢
    generalize m.body? other = b at related ⊢
    cases related with
    | none => exact ih
    | some inner => exact .some inner

theorem InlinedNode.addMacro {n m : Node} (h : InlinedNode name body n m) {t u : Table Macro}
    (tables : Table.Matched (InlinedMacro name body) t u) :
    Table.Matched (InlinedMacro name body) (addMacro t n) (addMacro u m) := by
  cases h with
  | same => cases n <;> first
    | exact tables
    | exact tables.put (.refl _)
  | definition inner => exact tables.put ⟨rfl, inner⟩
  | _ => exact tables

theorem foldl_addMacro {ns ms : List Node} (h : List.Forall₂ (InlinedNode name body) ns ms) :
    ∀ {t u : Table Macro}, Table.Matched (InlinedMacro name body) t u →
      Table.Matched (InlinedMacro name body) (ns.foldl addMacro t) (ms.foldl addMacro u) := by
  induction h with
  | nil => exact id
  | cons first _ ih => exact fun tables => ih (first.addMacro tables)

/-- A template with nodes in the place of some includes. -/
structure Template.Inlines (t : Template) (name : String) (body : List Node) (u : Template) :
    Prop where
  same : u.name = t.name
  tree : Inlined name body t.tree u.tree
  /-- At the top level of a template that extends another one there are as many nodes as before. -/
  level : t.parent ≠ none → List.Forall₂ (InlinedNode name body) t.tree u.tree

namespace Template.Inlines

variable {t u : Template} (straight : Straight body) (h : t.Inlines name body u)
include straight h

theorem parent : u.parent = t.parent := by
  rw [u.parent_eq, t.parent_eq]
  exact h.tree.findParent straight

theorem nodes : Inlined name body t.nodes u.nodes := by
  rw [u.nodes_eq, t.nodes_eq]
  exact h.tree.nodes straight

omit straight in
theorem nodes_level (extends_ : t.parent ≠ none) :
    List.Forall₂ (InlinedNode name body) t.nodes u.nodes := by
  rw [u.nodes_eq, t.nodes_eq]
  exact forall₂_filter (fun _ _ node => by rw [node.isDefinition]) (h.level extends_)

theorem body? (other : String) :
    Option.Rel (Inlined name body) (t.body? other) (u.body? other) := by
  unfold Template.body?
  rw [findSome?_notable, findSome?_notable]
  exact findSome?_body? other (h.tree.notable straight)

theorem macros : Table.Matched (InlinedMacro name body) t.macros u.macros := by
  rw [u.macros_eq, t.macros_eq, gatherMacros_notable, gatherMacros_notable]
  exact foldl_addMacro (h.tree.notable straight) .nil

end Template.Inlines

/-! ### Chains -/

namespace Chain

variable {t u : Template} (straight : Straight body) (h : t.Inlines name body u)
include straight h

theorem matched_bodies (up : List Template) (other : String) :
    List.Forall₂ (Inlined name body) (bodies other (up ++ [t])) (bodies other (up ++ [u])) := by
  have above : List.Forall₂ (Inlined name body) (bodies other up) (bodies other up) :=
    List.forall₂_same.mpr fun ns _ => .refl ns
  have last := h.body? straight other
  unfold bodies at above ⊢
  rw [List.filterMap_append, List.filterMap_append]
  refine List.rel_append above ?_
  rw [List.filterMap_cons, List.filterMap_cons]
  generalize t.body? other = a at last ⊢
  generalize u.body? other = b at last ⊢
  cases last with
  | none => exact .nil
  | some inner => exact .cons inner .nil

/-- The versions of each block. -/
theorem matched_versions (up : List Template) (other : String) :
    Option.Rel (List.Forall₂ (Inlined name body))
      (Table.find? other (versions (up ++ [t]))) (Table.find? other (versions (up ++ [u]))) := by
  have both := matched_bodies straight h up other
  unfold versions
  rw [versions_foldl, versions_foldl]
  generalize bodies other (up ++ [t]) = found at both ⊢
  generalize bodies other (up ++ [u]) = found' at both ⊢
  cases both with
  | nil => exact .none
  | cons first others => exact .some (.cons first others)

theorem matched_macros (up : List Template) :
    Table.Matched (InlinedMacro name body) (macros (up ++ [t])) (macros (up ++ [u])) := by
  unfold macros
  rw [List.foldl_append, List.foldl_append]
  have above : Table.Matched (InlinedMacro name body)
      (up.foldl (fun t template => Table.putAll t template.macros) [])
      (up.foldl (fun t template => Table.putAll t template.macros) []) :=
    List.forall₂_same.mpr fun q _ => ⟨rfl, .refl q.2⟩
  exact (h.macros straight).putAll above

omit straight in
/-- What the leaf of a longer chain adds. -/
theorem inlined_outside (further : t.parent ≠ none) : ∀ (up : List Template) (placed : List String),
    Inlined name body (outside placed (up ++ [t])).1 (outside placed (up ++ [u])).1 ∧
      Inlined name body (outside placed (up ++ [t])).2 (outside placed (up ++ [u])).2
  | [], placed => by
    have side (which : Side) := Inlined.of_forall₂ (forall₂_filter
      (p := fun n => side placed n = which) (fun n m node => by rw [node.side placed])
      (h.nodes_level further))
    exact ⟨(side .before).append .nil, (side .after).append .nil⟩
  | v :: up, placed => by
    obtain ⟨before, after⟩ := inlined_outside further up (placed ++ Table.names v.blocks)
    exact ⟨(Inlined.refl _).append before, (Inlined.refl _).append after⟩

end Chain

/-- **The content of a chain whose leaf is changed** differs by nodes in the place of includes. -/
theorem Merging.inlined_content {t u : Template} (straight : Straight body)
    (h : t.Inlines name body u) {up : List Template} (alone : t.parent = none → up = []) :
    Inlined name body (content (up ++ [t])) (content (up ++ [u])) := by
  rcases up with _ | ⟨root, up⟩
  · exact ((Inlined.refl []).append (h.nodes straight)).append (.refl [])
  · have further : t.parent ≠ none := fun last => nomatch alone last
    obtain ⟨before, after⟩ := Chain.inlined_outside h further up (Table.names root.blocks)
    exact (before.append (.refl root.nodes)).append after

end

end Stencil
