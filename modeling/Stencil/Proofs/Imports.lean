/-
# Which import of a macro counts

When a chain is merged, the imports at the top level of the templates that extend
another one are brought before the layout, those of a template nearer to the leaf
behind those of its ancestors. The layout is that of the root, and its own imports
stand in it. So the imports of the root come last, and behind all of them come
nothing but blocks and text. The last import of a macro decides what its name
stands for: the root's if it has one, and otherwise that of the template nearest
to the leaf.

Nodes below the top level may import macros as well. For a name that is imported
at the top level only, the tags of the merge that import it are told by the
templates alone, and it makes no difference into which blocks the merge looks.

Key definitions: `Template.inner`, `Template.import?`, `Chain.leafImport?`,
`Chain.lastImport?`, `Engine.imported?`.
Key theorems: `mem_walk`, `Merging.lastImport?_tourNodes`, `Chain.lastImport?_tags`,
`Engine.root_import_decides`.
-/
import Stencil.Proofs.Precedence

namespace Stencil

/-- The template that a node imports a macro from, if it does. -/
def Node.import? (name : String) : Node → Option String
  | .imports template names => if name ∈ names then some template else none
  | _ => none

/-! ### Below the top level -/

theorem mem_walk_alternative {m : Node} : ∀ {a : Alternative},
    m ∈ a.walk ↔ ∃ body ∈ a.bodies, m ∈ walkAll body
  | .otherwise body => by simp [Alternative.walk, Alternative.bodies]
  | .choice c body rest => by
    simp [Alternative.walk, Alternative.bodies, mem_walk_alternative (a := rest)]

/-- A walk through a node meets the node and what is in its bodies. -/
theorem mem_walk {m n : Node} : m ∈ n.walk ↔ m = n ∨ ∃ body ∈ n.childBodies, m ∈ walkAll body := by
  cases n with
  | choice c body rest => simp [Node.walk, Node.childBodies, mem_walk_alternative]
  | _ => simp [Node.walk, Node.childBodies]

namespace Template

/-- The nodes of a template below its top level. -/
def inner (t : Template) : List Node :=
  t.tree.flatMap fun n => n.childBodies.flatMap walkAll

theorem childBody_subset_inner {t : Template} {n : Node} {body : List Node} (top : n ∈ t.tree)
    (child : body ∈ n.childBodies) : walkAll body ⊆ t.inner := fun _ member =>
  List.mem_flatMap.mpr ⟨n, top, List.mem_flatMap.mpr ⟨body, child, member⟩⟩

/-- What is in the body of a node, at whatever level the node stands, is below the top level. -/
theorem walkAll_subset_inner {t : Template} {n : Node} {body : List Node} (met : n ∈ walkAll t.tree)
    (child : body ∈ n.childBodies) : walkAll body ⊆ t.inner := by
  obtain ⟨top, here, walked⟩ := mem_walkAll.mp met
  rcases mem_walk.mp walked with rfl | ⟨outer, among, within⟩
  · exact childBody_subset_inner here child
  · intro m member
    have reached : m ∈ walkAll outer :=
      walk_subset_walkAll outer n within (mem_walk.mpr (.inr ⟨body, child, member⟩))
    exact childBody_subset_inner here among reached

/-- The template that the last import of a macro at the top level of a template leads to. -/
def import? (name : String) (t : Template) : Option String :=
  t.tree.reverse.findSome? (Node.import? name)

end Template

namespace Chain

/-- The template that a macro is imported from at the top level of the template nearest to the leaf
that imports it there; the chain is given leaf first. -/
def leafImport? (name : String) (lineage : List Template) : Option String :=
  lineage.findSome? (Template.import? name)

/-- The template that the import of a macro leads to that comes last: the root's if it has one, and
otherwise that of the template nearest to the leaf. -/
def lastImport? (name : String) (lineage : List Template) : Option String :=
  (lineage.getLast?.bind (Template.import? name)).or (leafImport? name lineage)

end Chain

namespace Merging

variable {name : String}

/-! ### Walks without an import -/

/-- A walk that comes to no import of a macro. -/
def Quiet (name : String) (tour : Tour) : Prop :=
  ∀ opened, Tag.lastImport? name (tour opened).1 = none

namespace Quiet

theorem stay : Quiet name .stay := fun _ => rfl

theorem inclusion (template : String) : Quiet name (.meet (.inclusion template)) := fun _ => rfl

theorem andThen {a b : Tour} (first : Quiet name a) (second : Quiet name b) :
    Quiet name (a.andThen b) := fun opened => by
  show Tag.lastImport? name ((a opened).1 ++ (b (a opened).2).1) = none
  rw [Tag.lastImport?_append, first, second]
  rfl

theorem once {key : BlockKey} {inside : Tour} (quiet : Quiet name inside) :
    Quiet name (.once key inside) := fun opened => by
  by_cases known : key ∈ opened
  · rw [Tour.once_of_mem known]
    rfl
  · rw [Tour.once_of_not_mem known]
    exact quiet opened

end Quiet

/-- Blocks and parent marks lead to no import of a macro. -/
structure Guide.Quiet (name : String) (g : Guide) : Prop where
  block : ∀ b, Merging.Quiet name (g.block b)
  parent : Merging.Quiet name g.parent

/-- No import of a macro stands in the versions of blocks. -/
def Spared (name : String) (versions : Table (List (List Node))) : Prop :=
  ∀ b found, Table.find? b versions = some found → ∀ body ∈ found, ∀ n ∈ walkAll body,
    n.import? name = none

theorem lastImport?_meet (template : String) (names : List String) (opened : List BlockKey) :
    Tag.lastImport? name (Tour.meet (.imports template names) opened).1 =
      Node.import? name (.imports template names) := by
  simp [Tour.meet, Tag.lastImport?, Tag.import?, Node.import?]

section

variable {g : Guide}

mutual

theorem tourNode_quiet (quiet : g.Quiet name) : ∀ n : Node, (∀ m ∈ n.walk, m.import? name = none) →
    Quiet name (tourNode g n)
  | .block b _, _ => quiet.block b
  | .parent, _ => quiet.parent
  | .inclusion template, _ => .inclusion template
  | .imports template names, clear => fun opened =>
    (lastImport?_meet template names opened).trans (clear _ List.mem_cons_self)
  | .loop _ _ _ body, clear => tourNodes_quiet quiet body fun m h => clear m (List.mem_cons_of_mem _ h)
  | .choice _ body rest, clear =>
    (tourNodes_quiet quiet body fun m h =>
      clear m (List.mem_append_left _ (List.mem_cons_of_mem _ h))).andThen
    (tourAlternative_quiet quiet rest fun m h => clear m (List.mem_append_right _ h))
  | .inherit _, _ => .stay
  | .definition _ _ _, _ => .stay
  | .text _, _ => .stay
  | .output _, _ => .stay
  | .assign _ _, _ => .stay

theorem tourAlternative_quiet (quiet : g.Quiet name) : ∀ a : Alternative, (∀ m ∈ a.walk, m.import? name = none) →
    Quiet name (tourAlternative g a)
  | .choice _ body rest, clear =>
    (tourNodes_quiet quiet body fun m h => clear m (List.mem_append_left _ h)).andThen
      (tourAlternative_quiet quiet rest fun m h => clear m (List.mem_append_right _ h))
  | .otherwise body, clear => tourNodes_quiet quiet body clear

theorem tourNodes_quiet (quiet : g.Quiet name) : ∀ ns : List Node, (∀ m ∈ walkAll ns, m.import? name = none) →
    Quiet name (tourNodes g ns)
  | [], _ => .stay
  | n :: ns, clear =>
    (tourNode_quiet quiet n fun m h => clear m (List.mem_append_left _ h)).andThen
      (tourNodes_quiet quiet ns fun m h => clear m (List.mem_append_right _ h))

end

/-- **Of nodes without imports below their top level** the walk comes last to their last import. -/
theorem lastImport?_tourNodes (quiet : g.Quiet name) : ∀ ns : List Node,
    (∀ n ∈ ns, ∀ body ∈ n.childBodies, ∀ m ∈ walkAll body, m.import? name = none) → ∀ opened,
    Tag.lastImport? name (tourNodes g ns opened).1 = ns.reverse.findSome? (Node.import? name)
  | [], _, _ => rfl
  | n :: ns, top, opened => by
    obtain ⟨here, others⟩ := List.forall_mem_cons.mp top
    have first : Tag.lastImport? name (tourNode g n opened).1 = n.import? name := by
      have inner (own : n.import? name = none) :
          Tag.lastImport? name (tourNode g n opened).1 = none :=
        tourNode_quiet quiet n (fun m walked => by
          rcases mem_walk.mp walked with rfl | ⟨body, child, within⟩
          · exact own
          · exact here body child m within) opened
      cases n with
      | imports template names => exact lastImport?_meet template names opened
      | _ => exact inner rfl
    show Tag.lastImport? name ((tourNode g n opened).1 ++ (tourNodes g ns _).1) = _
    rw [Tag.lastImport?_append, lastImport?_tourNodes quiet ns others, first, List.reverse_cons,
      List.findSome?_append]
    simp

end

theorem guide_quiet {p : Place} {visit : BlockKey → Tour} (quiet : ∀ key, Quiet name (visit key)) :
    (p.guide visit).Quiet name where
  block b := quiet (p.top b)
  parent := by
    unfold Place.guide
    cases p.above with
    | none => exact .stay
    | some key => exact quiet key

/-- Into whatever versions of blocks a walk goes, it comes to no import if none stands in them. -/
theorem visit_quiet : ∀ (room : Nat) {p : Place}, Spared name p.versions → ∀ key,
    Quiet name (visit room p key)
  | 0, _, _, _ => .stay
  | room + 1, p, spared, key => by
    rw [visit]
    refine .once ?_
    cases version : (Table.find? key.1 p.versions).bind (·[key.2]?) with
    | none => exact .stay
    | some body =>
      obtain ⟨found, named, place⟩ := Option.bind_eq_some_iff.mp version
      have deeper : Spared name (p.within key).versions := spared
      exact tourNodes_quiet (guide_quiet (visit_quiet room deeper)) body
        (spared key.1 found named body (List.mem_of_getElem? place))

/-- Of nodes that are left out if they import nothing, the last import is the same. -/
theorem findSome?_reverse_filter {keep : Node → Bool} {ns : List Node}
    (others : ∀ n ∈ ns, keep n = false → n.import? name = none) :
    (ns.filter keep).reverse.findSome? (Node.import? name) =
      ns.reverse.findSome? (Node.import? name) := by
  induction ns with
  | nil => rfl
  | cons n ns ih =>
    obtain ⟨here, further⟩ := List.forall_mem_cons.mp others
    rw [List.reverse_cons, List.findSome?_append, ← ih further]
    by_cases kept : keep n = true
    · rw [List.filter_cons_of_pos kept, List.reverse_cons, List.findSome?_append]
    · rw [List.filter_cons_of_neg kept]
      have none : n.import? name = none := here (by simpa using kept)
      simp [none]

end Merging

namespace Chain

open Merging

variable {name : String}

theorem import?_nodes (t : Template) :
    t.nodes.reverse.findSome? (Node.import? name) = t.import? name := by
  rw [t.nodes_eq, Template.import?]
  refine findSome?_reverse_filter fun n _ left => ?_
  cases n with
  | imports template names => cases left
  | _ => rfl

/-- What comes before the layout has the imports of all templates but the root, the ones nearer to
the leaf behind the others, and what comes after the layout has none. -/
theorem import?_outside : ∀ (placed : List String) (chain : List Template),
    (outside placed chain).1.reverse.findSome? (Node.import? name) =
        leafImport? name chain.reverse ∧
      (outside placed chain).2.reverse.findSome? (Node.import? name) = none
  | _, [] => ⟨rfl, rfl⟩
  | placed, t :: chain => by
    obtain ⟨before, after⟩ := import?_outside (placed ++ Table.names t.blocks) chain
    constructor
    · have here : (t.nodes.filter fun n => side placed n = .before).reverse.findSome?
          (Node.import? name) = t.import? name := by
        rw [← import?_nodes]
        refine findSome?_reverse_filter fun n _ left => ?_
        cases n with
        | imports template names => cases left
        | _ => rfl
      simp only [outside, leafImport?] at before ⊢
      rw [List.reverse_append, List.findSome?_append, before, here, List.reverse_cons,
        List.findSome?_append]
      simp
    · have here : ∀ n ∈ t.nodes.filter fun n => side placed n = .after,
          n.import? name = none := by
        intro n member
        have behind := (List.mem_filter.mp member).2
        cases n with
        | imports template names => cases behind
        | _ => rfl
      simp only [outside]
      rw [List.reverse_append, List.findSome?_append, after, Option.none_or]
      exact List.findSome?_eq_none_iff.mpr fun n member => here n (List.mem_reverse.mp member)

/-- **The last import of a merge.** If a macro is imported at the top level only, the tags that the
merge of a chain comes to import it last where the root does, or else the template nearest to the
leaf. -/
theorem lastImport?_tags {lineage : List Template} (proper : lineage ≠ [])
    (top : ∀ t ∈ lineage, ∀ n ∈ t.inner, n.import? name = none) :
    Tag.lastImport? name (tags lineage.reverse) = lastImport? name lineage := by
  obtain ⟨root, rest, order⟩ := List.exists_cons_of_ne_nil (List.reverse_ne_nil_iff.mpr proper)
  have among : ∀ t ∈ lineage.reverse, ∀ n ∈ t.inner, n.import? name = none := fun t member =>
    top t (List.mem_reverse.mp member)
  have spared : Spared name (Place.ofChain [] lineage.reverse).versions := by
    intro b found named body member n inside
    obtain ⟨rfl, -⟩ := find?_versions.mp named
    obtain ⟨t, here, block⟩ := List.mem_filterMap.mp member
    exact among t here n (Template.walkAll_subset_inner (Template.block_of_body? block)
      (List.mem_singleton.mpr rfl) inside)
  have macros : ∀ n ∈ walkAll ((macros lineage.reverse).flatMap fun m => m.2.body),
      n.import? name = none := by
    intro n inside
    obtain ⟨m, member, walked⟩ := mem_walkAll.mp inside
    obtain ⟨q, defined, own⟩ := List.mem_flatMap.mp member
    obtain ⟨t, here, among'⟩ := exists_of_mem_macros defined
    obtain ⟨parameters, body, met, same⟩ := Template.definition_of_macro among'
    rw [same] at own
    exact among t here n (Template.walkAll_subset_inner met (List.mem_singleton.mpr rfl)
      (mem_walkAll.mpr ⟨m, own, walked⟩))
  have content : ∀ n ∈ content lineage.reverse, ∀ body ∈ n.childBodies, ∀ m ∈ walkAll body,
      m.import? name = none := by
    intro n member body child m inside
    obtain ⟨t, here, own⟩ := exists_of_mem_content member
    exact among t here m (Template.childBody_subset_inner own child inside)
  have quiet := guide_quiet (p := .ofChain [] lineage.reverse)
    (visit_quiet (Merge.versionCount (versions lineage.reverse)) spared)
  rw [tags_eq, Tag.lastImport?_append]
  unfold tourChain
  rw [tourNodes_quiet quiet _ macros, Option.or_none, lastImport?_tourNodes quiet _ content]
  obtain ⟨before, after⟩ :=
    @import?_outside name (Table.names root.blocks) rest
  have first : lineage = rest.reverse ++ [root] := by
    rw [← List.reverse_reverse lineage, order, List.reverse_cons]
  rw [order, Merging.content, parts]
  dsimp only
  rw [List.reverse_append, List.reverse_append, List.findSome?_append, List.findSome?_append,
    after, import?_nodes, before, Option.none_or, lastImport?, first]
  simp only [List.getLast?_concat, Option.bind_some, leafImport?, List.findSome?_append]
  cases own : root.import? name <;> simp [own]

end Chain

namespace Engine

open Merging Substitution

/-- The macro that an import of a name takes from a template. -/
def imported? (e : Engine) (s : Session) (name template : String) : Option Macro :=
  (e.alone s template).bind (Merged.taken? name)

/-- **The import that comes last decides.** In a chain that can be merged, a macro that no template of
it defines and that is imported at the top level only, by at least one of them, is the one that the
root imports last, or if the root does not import it the one that the template nearest to the leaf
imports last. So the import nearest to the leaf decides if and only if the root has none of the
name, or has one that takes the same macro. -/
theorem root_import_decides (e : Engine) (t : Template) (s : Session) (m : Merged)
    (h : (e.mergeTemplate t s).1 = .ok m) :
    ∃ lineage, Lineage (s.answer e.loader) t lineage ∧
      ∀ name near, Chain.macro? name lineage = none →
        (∀ u ∈ lineage, ∀ n ∈ u.inner, n.import? name = none) →
        Chain.leafImport? name lineage = some near →
        ∃ last q, Chain.lastImport? name lineage = some last ∧ e.imported? s name last = some q ∧
          Table.find? name m.macros = some q ∧
          (Table.find? name m.macros = e.imported? s name near ↔
            ∀ far, lineage.getLast?.bind (Template.import? name) = some far →
              e.imported? s name far = e.imported? s name near) := by
  obtain ⟨es, merges⟩ := (e.mergeTemplate_eq_iff t s (.ok m)).mp h
  obtain ⟨lineage, ancestry, precedence⟩ := merges.precedence (e.finds s)
  refine ⟨lineage, ancestry, fun name near undefined top nearest => ?_⟩
  have proper : lineage ≠ [] := by cases ancestry <;> exact List.cons_ne_nil _ _
  have supplies (last : String) (decides : Chain.lastImport? name lineage = some last) :
      ∃ q, e.imported? s name last = some q ∧ Table.find? name m.macros = some q := by
    rw [← Chain.lastImport?_tags proper top] at decides
    obtain ⟨source, q, led, inside, found⟩ := precedence.imported name last undefined decides
    refine ⟨q.taken source.macros, ?_, found⟩
    rw [imported?, led, Option.bind_some, Merged.taken?, inside, Option.map_some]
  unfold Chain.lastImport? at supplies ⊢
  rw [nearest] at supplies ⊢
  cases root : lineage.getLast?.bind (Template.import? name) with
  | none =>
    rw [root] at supplies
    obtain ⟨q, taken, found⟩ := supplies near rfl
    exact ⟨near, q, rfl, taken, found, fun _ _ led => absurd led (by simp),
      fun _ => found.trans taken.symm⟩
  | some far =>
    rw [root] at supplies
    obtain ⟨q, taken, found⟩ := supplies far rfl
    refine ⟨far, q, rfl, taken, found, ?_⟩
    rw [found, ← taken]
    exact ⟨fun same _ here => Option.some.inj here ▸ same, fun same => same far rfl⟩

/-- A root that imports a macro and calls it. -/
def shelf : Template :=
  .ofNodes "shelf" [.imports "lib" ["b"], .output (.call "b" [])]

/-- A template that extends it and imports another macro of the name. -/
def corner : Template :=
  .ofNodes "corner" [.inherit "shelf", .imports "kit" ["b"]]

/-- A session in which all but the leaf were loaded. -/
def shelved : Session := ⟨[("lib", lib), ("kit", kit), ("shelf", shelf)], []⟩

/-- The macro of the root's import, although an import nearer to the leaf leads elsewhere. -/
def shelfMacros : Table Macro :=
  [("b", .mk [] [.output (.call "a" [])]
    (some [("a", .mk [] [.text "A"] none), ("b", .mk [] [.output (.call "a" [])] none)]))]

theorem root_import_decides_corner :
    (offline.mergeTemplate corner shelved).1 = .ok ⟨[.output (.call "b" [])], shelfMacros⟩ ∧
      Lineage (shelved.answer offline.loader) corner [corner, shelf] ∧
      Chain.leafImport? "b" [corner, shelf] = some "kit" ∧
      Chain.lastImport? "b" [corner, shelf] = some "lib" ∧
      offline.imported? shelved "b" "kit" =
        some (.mk [] [.text "K"] (some [("b", .mk [] [.text "K"] none),
          ("c", .mk [] [.text "C"] none)])) ∧
      Table.find? "b" shelfMacros ≠ offline.imported? shelved "b" "kit" := by
  have merges : (offline.mergeTemplate corner shelved).1 =
      .ok ⟨[.output (.call "b" [])], shelfMacros⟩ := by decide +kernel
  have chain : Lineage (shelved.answer offline.loader) corner [corner, shelf] :=
    .extends rfl rfl (.root rfl)
  obtain ⟨lineage, ancestry, decides⟩ := root_import_decides offline corner shelved _ merges
  obtain rfl := lineage_unique ancestry chain
  have near : Chain.leafImport? "b" [corner, shelf] = some "kit" := by decide
  have far : offline.imported? shelved "b" "lib" = Table.find? "b" shelfMacros := by decide
  have other : offline.imported? shelved "b" "kit" =
      some (.mk [] [.text "K"] (some [("b", .mk [] [.text "K"] none),
        ("c", .mk [] [.text "C"] none)])) := by decide
  obtain ⟨last, q, comes, -, -, nearest⟩ := decides "b" "kit" (by decide) (by decide) near
  refine ⟨merges, chain, near, by decide, other, fun same => ?_⟩
  have taken := nearest.mp same "lib" (by decide)
  rw [far, other] at taken
  cases taken

end Engine

end Stencil
