/-
# Merged templates are closed

What a template is merged into holds no tag that leads elsewhere: at every depth
there are only text, output, loops, choices, assignments and blocks. The same
goes for the bodies of its macros, for the bodies of the macros that these see,
and so on. The conditions in it are those of the templates that it was merged
from.

Key definitions: `Node.isPlain`, `Node.conditions`, `Merged.Closed`.
Key theorems: `Merging.Expands.closed`, `Merging.Merges.closed`.
-/
import Stencil.Proofs.Blocks
import Stencil.Proofs.Determinism

namespace Stencil

/-- Whether a node is of a kind that a renderer has something to do for. -/
def Node.isPlain : Node → Bool
  | .text _ => true
  | .output _ => true
  | .loop _ _ _ _ => true
  | .choice _ _ _ => true
  | .assign _ _ => true
  | .block _ _ => true
  | _ => false

/-- The conditions of what is left of a choice. -/
def Alternative.conditions : Alternative → List Condition
  | .choice c _ rest => c :: rest.conditions
  | .otherwise _ => []

/-- The conditions of a node itself. -/
def Node.conditions : Node → List Condition
  | .choice c _ rest => c :: rest.conditions
  | _ => []

/-- Something holds of all nodes at every depth. -/
def Everyone (P : Node → Prop) (ns : List Node) : Prop :=
  ∀ n ∈ walkAll ns, P n

/-- Something holds of the body of a macro, and of all bodies of macros that it sees, and so on. -/
inductive Macro.Throughout (P : List Node → Prop) : Macro → Prop
  | mk {m : Macro} (body : P m.body)
    (scope : ∀ macros : Table Macro, m.scope = some macros → ∀ q ∈ macros, Throughout P q.2) :
    Throughout P m

/-- Something holds of the nodes of a merged template and of all bodies of macros. -/
structure Merged.Throughout (P : List Node → Prop) (m : Merged) : Prop where
  nodes : P m.nodes
  macros : ∀ q ∈ m.macros, q.2.Throughout P

/-- Only kinds of nodes that a renderer has something to do for, at every depth. -/
def Merged.Closed (m : Merged) : Prop :=
  m.Throughout (Everyone fun n => n.isPlain)

namespace Macro.Throughout

variable {P Q : List Node → Prop}

theorem body_of {m : Macro} (h : m.Throughout P) : P m.body := by
  cases h with
  | mk body _ => exact body

theorem scope_of {m : Macro} (h : m.Throughout P) {macros : Table Macro}
    (hs : m.scope = some macros) : ∀ q ∈ macros, q.2.Throughout P := by
  cases h with
  | mk _ scope => exact scope macros hs

/-- A macro without a scope of its own only has its body. -/
theorem bare {parameters : List String} {body : List Node} (h : P body) :
    (Macro.mk parameters body none).Throughout P :=
  .mk h fun _ hs => nomatch hs

theorem inScope {m : Macro} (h : m.Throughout P) {macros : Table Macro}
    (hm : ∀ q ∈ macros, q.2.Throughout P) : (m.inScope macros).Throughout P :=
  .mk h.body_of fun _ hs => Option.some.inj hs ▸ hm

/-- What is so of all bodies is so of those of a macro. -/
theorem of_forall (h : ∀ ns, P ns) : ∀ m : Macro, m.Throughout P
  | .mk _ body scope => .mk (h body) fun macros own q there => by
    have smaller := List.sizeOf_lt_of_mem there
    exact of_forall h q.2
termination_by m => sizeOf m
decreasing_by
  obtain ⟨name, m⟩ := q
  obtain rfl : scope = some macros := own
  simp only [Macro.mk.sizeOf_spec, Option.some.sizeOf_spec, Prod.mk.sizeOf_spec] at smaller ⊢
  omega

theorem imp (hPQ : ∀ ns, P ns → Q ns) {m : Macro} (h : m.Throughout P) : m.Throughout Q := by
  induction h with
  | mk body _ ih => exact .mk (hPQ _ body) ih

end Macro.Throughout

theorem Merged.Throughout.imp {P Q : List Node → Prop} (hPQ : ∀ ns, P ns → Q ns) {m : Merged}
    (h : m.Throughout P) : m.Throughout Q :=
  ⟨hPQ _ h.nodes, fun q hq => (h.macros q hq).imp hPQ⟩

end Stencil

namespace Stencil.Merging

section

variable (A : Condition → Prop)

/-- All conditions of a node are of a kind. -/
def Asks (n : Node) : Prop :=
  ∀ c ∈ n.conditions, A c

/-- A node that is plain, with conditions of a kind. -/
structure Plain (n : Node) : Prop where
  plain : n.isPlain = true
  asks : Asks A n

/-- All that a merge has made so far is plain. -/
structure Tidy (d : Scratch) : Prop where
  macros : ∀ q ∈ d.macros, q.2.Throughout (Everyone (Plain A))
  resolved : ∀ key body, d.resolved.lookup key = some body → Everyone (Plain A) body

/-- All versions of blocks have conditions of a kind only. -/
def Sourced (p : Place) : Prop :=
  ∀ name found, Table.find? name p.versions = some found → ∀ body ∈ found, Everyone (Asks A) body

/-- All templates that names lead to have conditions of a kind only. -/
def Supplied (look : String → Except Failure Template) : Prop :=
  ∀ name t, look name = .ok t → Everyone (Asks A) t.tree

end

section

variable {A : Condition → Prop}

namespace Tidy

variable {d : Scratch}

theorem empty : Tidy A .empty where
  macros _ hq := nomatch hq
  resolved _ _ hl := nomatch hl

theorem bind (h : Tidy A d) {m : Macro} (hm : m.Throughout (Everyone (Plain A))) (name : String) :
    Tidy A (d.bind name m) where
  macros q hq := by
    rcases Table.mem_of_mem_put hq with rfl | hq
    · exact hm
    · exact h.macros q hq
  resolved := h.resolved

theorem keep (h : Tidy A d) {body : List Node} (hb : Everyone (Plain A) body) (key : BlockKey) :
    Tidy A (d.keep key body) where
  macros := h.macros
  resolved key' body' hl := by
    rw [Scratch.keep, List.lookup_cons] at hl
    split at hl
    · cases hl
      exact hb
    · exact h.resolved key' body' hl

theorem adopt {macros : Table Macro} (hm : ∀ q ∈ macros, q.2.Throughout (Everyone (Plain A)))
    (h : Tidy A d) : Tidy A (d.adopt macros) where
  macros := by
    have all : ∀ (macros t : Table Macro), (∀ q ∈ macros, q.2.Throughout (Everyone (Plain A))) →
        (∀ q ∈ t, q.2.Throughout (Everyone (Plain A))) →
        ∀ q ∈ macros.foldl (fun t m => Table.putAbsent m.1 m.2 t) t,
          q.2.Throughout (Everyone (Plain A)) := by
      intro macros
      induction macros with
      | nil => exact fun t _ ht => ht
      | cons m macros ih =>
        intro t hm ht
        refine ih _ (fun q hq => hm q (List.mem_cons_of_mem _ hq)) fun q hq => ?_
        rcases Table.mem_of_mem_putAbsent hq with rfl | hq
        · exact hm m List.mem_cons_self
        · exact ht q hq
    exact all macros d.macros hm h.macros
  resolved := h.resolved

theorem importNames {defined : List String} {template : String} {source : Table Macro}
    (hs : ∀ q ∈ source, q.2.Throughout (Everyone (Plain A))) {r : Except Failure Unit}
    {d' : Scratch} :
    ∀ (names : List String) {d : Scratch}, Tidy A d →
      Merge.importNames defined template source names d = (r, d') → Tidy A d'
  | [], d, h, run => by
    cases (show (Except.ok (), d) = (r, d') from run)
    exact h
  | name :: names, d, h, run => by
    rcases found : Table.find? name source with _ | m
    · rw [importNames_missing found] at run
      cases run
      exact h
    · rw [importNames_found found] at run
      have hm := hs _ (Table.mem_of_find? found)
      refine importNames hs names ?_ run
      by_cases hd : defined.contains name
      · rwa [if_pos hd]
      · rw [if_neg hd]
        refine h.bind ?_ name
        by_cases hs' : m.scope.isSome
        · rwa [if_pos hs']
        · rw [if_neg hs']
          exact hm.inScope hs

end Tidy

/-- A node without conditions has those of a kind only. -/
theorem asks_of_nil {n : Node} (h : n.conditions = []) : Asks A n := by
  intro c hc
  rw [h] at hc
  cases hc

/-- What holds of a node and of all nodes in its body holds throughout. -/
theorem walk_of_body {P : Node → Prop} {n : Node} {body : List Node}
    (walk : n.walk = n :: walkAll body) (here : P n) (inside : Everyone P body) :
    ∀ m ∈ n.walk, P m := by
  rw [walk]
  exact List.forall_mem_cons.mpr ⟨here, inside⟩

theorem everyone_nil {P : Node → Prop} : Everyone P [] := by
  intro n h
  cases h

theorem everyone_append {P : Node → Prop} {ns ms : List Node} (hn : Everyone P ns)
    (hm : Everyone P ms) : Everyone P (ns ++ ms) := by
  intro n h
  rw [walkAll_append] at h
  exact (List.mem_append.mp h).elim (hn n) (hm n)

theorem everyone_singleton {P : Node → Prop} {n : Node} : Everyone P [n] ↔ ∀ m ∈ n.walk, P m := by
  simp [Everyone, walkAll]

variable {look : String → Except Failure Template} {limit : Int}

/-- What holds of a leaf and of all templates that names lead to holds of the whole chain. -/
theorem Climbs.throughout {P : Template → Prop} {before : List String} {leaf : String}
    {chain : List Template} {t : Template} {es : List Event} {r : Except Failure (List Template)}
    (h : Climbs look limit before leaf chain t es r) (found : ∀ name u, look name = .ok u → P u)
    (ht : P t) (hc : ∀ u ∈ chain, P u) : ∀ made, r = .ok made → ∀ u ∈ made, P u := by
  induction h with
  | circular _ => exact fun _ hr => nomatch hr
  | tooDeep _ _ => exact fun _ hr => nomatch hr
  | root _ _ _ =>
    rintro _ ⟨⟩
    exact List.forall_mem_cons.mpr ⟨ht, hc⟩
  | lost _ _ _ _ => exact fun _ hr => nomatch hr
  | parent _ _ _ next _ ih => exact ih (found _ _ next) (List.forall_mem_cons.mpr ⟨ht, hc⟩)

mutual

theorem ExpandsNode.closed {p : Place} {n : Node} {d : Scratch} {es : List Event}
    {r : Except Failure (List Node)} {d' : Scratch} (h : ExpandsNode look limit p n d es r d')
    (supplied : Supplied A look) (sourced : Sourced A p) (asks : ∀ m ∈ n.walk, Asks A m)
    (tidy : Tidy A d) : ∀ made, r = .ok made → Tidy A d' ∧ Everyone (Plain A) made := by
  match h with
  | .text =>
    rintro _ ⟨⟩
    exact ⟨tidy, everyone_singleton.mpr (by simp [Node.walk]; exact ⟨rfl, asks_of_nil rfl⟩)⟩
  | .output =>
    rintro _ ⟨⟩
    exact ⟨tidy, everyone_singleton.mpr (by simp [Node.walk]; exact ⟨rfl, asks_of_nil rfl⟩)⟩
  | .assign =>
    rintro _ ⟨⟩
    exact ⟨tidy, everyone_singleton.mpr (by simp [Node.walk]; exact ⟨rfl, asks_of_nil rfl⟩)⟩
  | .inherit =>
    rintro _ ⟨⟩
    exact ⟨tidy, everyone_nil⟩
  | .definition =>
    rintro _ ⟨⟩
    exact ⟨tidy, everyone_nil⟩
  | .block version =>
    have closed := version.closed supplied sourced tidy
    intro _ hr
    obtain ⟨body, rfl, rfl⟩ := ok_of_map hr
    obtain ⟨tidy', plain⟩ := closed body rfl
    exact ⟨tidy', everyone_singleton.mpr (walk_of_body rfl ⟨rfl, asks_of_nil rfl⟩ plain)⟩
  | .noParent _ =>
    rintro _ ⟨⟩
    exact ⟨tidy, everyone_nil⟩
  | .parent _ version => exact version.closed supplied sourced tidy
  | .inclusion merged =>
    rintro _ ⟨⟩
    have closed := merged.closed supplied _ rfl
    exact ⟨tidy.adopt closed.macros, closed.nodes⟩
  | .inclusionFails _ => exact fun _ hr => nomatch hr
  | .imports merged taken =>
    have closed := merged.closed supplied _ rfl
    intro _ hr
    obtain ⟨_, rfl, rfl⟩ := ok_of_map hr
    exact ⟨tidy.importNames closed.macros _ taken, everyone_nil⟩
  | .importsFails _ => exact fun _ hr => nomatch hr
  | .loop inner =>
    have closed := inner.closed supplied sourced
      (fun m hm => asks m (List.mem_cons_of_mem _ hm)) tidy
    intro _ hr
    obtain ⟨body, rfl, rfl⟩ := ok_of_map hr
    obtain ⟨tidy', plain⟩ := closed body rfl
    exact ⟨tidy', everyone_singleton.mpr (walk_of_body rfl ⟨rfl, asks_of_nil rfl⟩ plain)⟩
  | .choice inner others =>
    obtain ⟨tidy', plain⟩ := inner.closed supplied sourced
      (fun m hm => asks m (by simp [Node.walk, hm])) tidy _ rfl
    have closed := others.closed supplied sourced
      (fun m hm => asks m (by simp [Node.walk, hm])) tidy'
    have here := asks _ (mem_walk_self _)
    intro _ hr
    obtain ⟨rest, rfl, rfl⟩ := ok_of_map hr
    obtain ⟨tidy'', same, plain'⟩ := closed rest rfl
    refine ⟨tidy'', everyone_singleton.mpr fun m hm => ?_⟩
    simp only [Node.walk, List.cons_append, List.mem_cons, List.mem_append] at hm
    rcases hm with rfl | hm | hm
    · refine ⟨rfl, fun c hc => here c ?_⟩
      rw [Node.conditions, same] at hc
      exact hc
    · exact plain m hm
    · exact plain' m hm
  | .choiceFails _ => exact fun _ hr => nomatch hr

theorem ExpandsRest.closed {p : Place} {a : Alternative} {d : Scratch} {es : List Event}
    {r : Except Failure Alternative} {d' : Scratch} (h : ExpandsRest look limit p a d es r d')
    (supplied : Supplied A look) (sourced : Sourced A p) (asks : ∀ m ∈ a.walk, Asks A m)
    (tidy : Tidy A d) : ∀ made, r = .ok made →
      Tidy A d' ∧ made.conditions = a.conditions ∧ ∀ m ∈ made.walk, Plain A m := by
  match h with
  | .choice inner others =>
    obtain ⟨tidy', plain⟩ := inner.closed supplied sourced
      (fun m hm => asks m (List.mem_append_left _ hm)) tidy _ rfl
    have closed := others.closed supplied sourced
      (fun m hm => asks m (List.mem_append_right _ hm)) tidy'
    intro _ hr
    obtain ⟨rest, rfl, rfl⟩ := ok_of_map hr
    obtain ⟨tidy'', same, plain'⟩ := closed rest rfl
    refine ⟨tidy'', by rw [Alternative.conditions, Alternative.conditions, same], fun m hm => ?_⟩
    exact (List.mem_append.mp hm).elim (plain m) (plain' m)
  | .choiceFails _ => exact fun _ hr => nomatch hr
  | .otherwise inner =>
    have closed := inner.closed supplied sourced asks tidy
    intro _ hr
    obtain ⟨body, rfl, rfl⟩ := ok_of_map hr
    obtain ⟨tidy', plain⟩ := closed body rfl
    exact ⟨tidy', rfl, plain⟩

theorem Expands.closed {p : Place} {ns : List Node} {d : Scratch} {es : List Event}
    {r : Except Failure (List Node)} {d' : Scratch} (h : Expands look limit p ns d es r d')
    (supplied : Supplied A look) (sourced : Sourced A p) (asks : Everyone (Asks A) ns)
    (tidy : Tidy A d) : ∀ made, r = .ok made → Tidy A d' ∧ Everyone (Plain A) made := by
  match h with
  | .nil =>
    rintro _ ⟨⟩
    exact ⟨tidy, everyone_nil⟩
  | .cons first others =>
    obtain ⟨tidy', plain⟩ := first.closed supplied sourced
      (fun m hm => asks m (List.mem_append_left _ hm)) tidy _ rfl
    have closed := others.closed supplied sourced
      (fun m hm => asks m (List.mem_append_right _ hm)) tidy'
    intro _ hr
    obtain ⟨more, rfl, rfl⟩ := ok_of_map hr
    obtain ⟨tidy'', plain'⟩ := closed more rfl
    exact ⟨tidy'', everyone_append plain plain'⟩
  | .consFails _ => exact fun _ hr => nomatch hr

theorem Resolves.closed {p : Place} {key : BlockKey} {d : Scratch} {es : List Event}
    {r : Except Failure (List Node)} {d' : Scratch} (h : Resolves look limit p key d es r d')
    (supplied : Supplied A look) (sourced : Sourced A p) (tidy : Tidy A d) :
    ∀ made, r = .ok made → Tidy A d' ∧ Everyone (Plain A) made := by
  match h with
  | .noBlock _ => exact fun _ hr => nomatch hr
  | .known _ kept =>
    rintro _ ⟨⟩
    exact ⟨tidy, tidy.resolved _ _ kept⟩
  | .again _ _ _ => exact fun _ hr => nomatch hr
  | .noVersion _ _ _ _ => exact fun _ hr => nomatch hr
  | .opens named _ _ version inner =>
    obtain ⟨tidy', plain⟩ := inner.closed supplied sourced
      (sourced _ _ named _ (List.mem_of_getElem? version)) tidy _ rfl
    rintro _ ⟨⟩
    exact ⟨tidy'.keep plain key, plain⟩
  | .opensFails _ _ _ _ _ => exact fun _ hr => nomatch hr

theorem ExpandsMacros.closed {p : Place} {ms : Table Macro} {d : Scratch} {es : List Event}
    {r : Except Failure Unit} {d' : Scratch} (h : ExpandsMacros look limit p ms d es r d')
    (supplied : Supplied A look) (sourced : Sourced A p)
    (asks : ∀ m ∈ ms, Everyone (Asks A) m.2.body) (tidy : Tidy A d) : r = .ok () → Tidy A d' := by
  match h with
  | .nil => exact fun _ => tidy
  | .cons first others =>
    obtain ⟨tidy', plain⟩ := first.closed supplied sourced (asks _ List.mem_cons_self) tidy _ rfl
    exact others.closed supplied sourced (fun m hm => asks m (List.mem_cons_of_mem _ hm))
      (tidy'.bind (.bare plain) _)
  | .consFails _ => exact fun hr => nomatch hr

theorem Reaches.closed {before : List String} {name : String} {es : List Event}
    {r : Except Failure Merged} (h : Reaches look limit before name es r)
    (supplied : Supplied A look) : ∀ m, r = .ok m → m.Throughout (Everyone (Plain A)) := by
  match h with
  | .lost _ => exact fun _ hr => nomatch hr
  | .merged found merge => exact merge.closed supplied (supplied _ _ found)

/-- **What a template is merged into is closed**, with conditions of the templates only. -/
theorem Merges.closed {before : List String} {leaf : Template} {es : List Event}
    {r : Except Failure Merged} (h : Merges look limit before leaf es r)
    (supplied : Supplied A look) (asks : Everyone (Asks A) leaf.tree) :
    ∀ m, r = .ok m → m.Throughout (Everyone (Plain A)) := by
  match h with
  | .refused _ => exact fun _ hr => nomatch hr
  | .macrosFail _ _ => exact fun _ hr => nomatch hr
  | .expands climb macros nodes =>
    have everywhere := everywhere_of_chain
      (climb.throughout supplied asks (fun _ hu => nomatch hu) _ rfl)
    have tidy := macros.closed supplied everywhere.versions everywhere.macros .empty rfl
    have closed := nodes.closed supplied everywhere.versions everywhere.nodes tidy
    intro _ hr
    obtain ⟨made, rfl, rfl⟩ := ok_of_map hr
    obtain ⟨tidy', plain⟩ := closed made rfl
    exact ⟨plain, tidy'.macros⟩

end

end

end Stencil.Merging
