/-
# Which macro a name stands for

Four things write macros into the table of a merge: the definitions in the
chain, the imports, the includes, and the merges of the templates that these
lead to. What the table holds in the end does not depend on where in the chain
they stand. A definition in the chain goes before everything else, and the one
nearest to the leaf before the others; then comes an import, the last one of
the name; and then the first include that has a macro of the name.

Key definitions: `Template.macro?`, `Chain.macro?`, `Substitution.filled`,
`Merging.Precedence`, `Engine.alone`.
Key theorems: `Chain.find?_macros`, `Merging.ExpandsMacros.stores`,
`Merging.Merges.precedence`, `Engine.macro_precedence`.
-/
import Stencil.Proofs.Tags

namespace Stencil

/-! ### The definitions in a chain -/

/-- The macro that a node defines under a name. -/
def Node.macro? (name : String) : Node → Option Macro
  | .definition n parameters body => if n = name then some (.mk parameters body none) else none
  | _ => none

/-- The last macro with a name that a template defines, at whatever level. -/
def Template.macro? (name : String) (t : Template) : Option Macro :=
  (walkAll t.tree).reverse.findSome? (Node.macro? name)

/-- The macro with a name in the template nearest to the leaf that defines one; the chain is given
leaf first. -/
def Chain.macro? (name : String) (lineage : List Template) : Option Macro :=
  lineage.findSome? (Template.macro? name)

namespace Template

theorem find?_foldl_addMacro (name : String) : ∀ (ns : List Node) (t : Table Macro),
    Table.find? name (ns.foldl addMacro t) =
      (ns.reverse.findSome? (Node.macro? name)).or (Table.find? name t)
  | [], t => rfl
  | n :: ns, t => by
    have first : Table.find? name (addMacro t n) =
        (Node.macro? name n).or (Table.find? name t) := by
      cases n with
      | definition other parameters body =>
        by_cases same : other = name
        · subst same
          simp [addMacro, Node.macro?]
        · have differ : name ≠ other := fun e => same e.symm
          simp [addMacro, Node.macro?, same, Table.find?_put_ne differ]
      | _ => rfl
    rw [List.foldl_cons, find?_foldl_addMacro name ns, first, List.reverse_cons,
      List.findSome?_append, Option.or_assoc]
    simp

theorem find?_macros (name : String) (t : Template) :
    Table.find? name t.macros = t.macro? name := by
  rw [t.macros_eq, gatherMacros, find?_foldl_addMacro, macro?]
  exact Option.or_none

theorem nodup_foldl_addMacro : ∀ (ns : List Node) {t : Table Macro}, (Table.names t).Nodup →
    (Table.names (ns.foldl addMacro t)).Nodup
  | [], _, h => h
  | n :: ns, t, h => by
    rw [List.foldl_cons]
    cases n with
    | definition name parameters body => exact nodup_foldl_addMacro ns (Table.nodup_put _ h)
    | _ => exact nodup_foldl_addMacro ns h

theorem nodup_macros (t : Template) : (Table.names t.macros).Nodup := by
  rw [t.macros_eq]
  exact nodup_foldl_addMacro _ .nil

end Template

namespace Chain

theorem find?_foldl_putAll (name : String) : ∀ (chain : List Template) (t : Table Macro),
    Table.find? name (chain.foldl (fun t template => Table.putAll t template.macros) t) =
      (macro? name chain.reverse).or (Table.find? name t)
  | [], _ => rfl
  | template :: chain, t => by
    rw [List.foldl_cons, find?_foldl_putAll name chain, Table.find?_putAll _ template.nodup_macros,
      Template.find?_macros, macro?, macro?, List.reverse_cons, List.findSome?_append,
      Option.or_assoc]
    simp

/-- **The macro of a chain is the last one in the template nearest to the leaf.** -/
theorem find?_macros (name : String) (lineage : List Template) :
    Table.find? name (macros lineage.reverse) = macro? name lineage := by
  rw [macros, find?_foldl_putAll, List.reverse_reverse]
  exact Option.or_none

theorem nodup_macros (chain : List Template) : (Table.names (macros chain)).Nodup := by
  have all : ∀ (chain : List Template) {t : Table Macro}, (Table.names t).Nodup →
      (Table.names
        (chain.foldl (fun t template => Table.putAll t template.macros) t)).Nodup := by
    intro chain
    induction chain with
    | nil => exact fun h => h
    | cons template chain ih => exact fun h => ih (Table.nodup_putAll template.macros h)
  exact all chain .nil

theorem mem_names_macros {name : String} {lineage : List Template} :
    name ∈ Table.names (macros lineage.reverse) ↔ (macro? name lineage).isSome := by
  rw [← find?_macros, Table.isSome_find?]

end Chain

namespace Substitution

/-- Nodes outside of all blocks with everything put in, where versions stand inside one another at
most so deep. -/
def filled (included : String → Option (List Node)) (lineage : List Template) (ns : List Node)
    (depth : Nat) : Option (List Node) :=
  fillNodes ⟨fun b => version included lineage depth b lineage, some [], included⟩ ns

end Substitution

namespace Merging

open Substitution

/-- The nodes of the templates as they are merged by themselves. -/
def inserted (alone : String → Option Merged) (name : String) : Option (List Node) :=
  (alone name).map Merged.nodes

/-- **What a name stands for in the macros of a merge.** `alone` are the templates as they are
merged by themselves. -/
structure Precedence (alone : String → Option Merged) (lineage : List Template)
    (macros : Table Macro) : Prop where
  /-- A macro that the chain defines goes before all others. It has no macros of its own to see, and
  everything is put into its body. -/
  defined : ∀ name q, Chain.macro? name lineage = some q →
    ∃ body, Table.find? name macros = some (.mk q.parameters body none) ∧
      Settles (filled (inserted alone) lineage q.body) body
  /-- If the chain defines none, the last import of the name counts. -/
  imported : ∀ name template, Chain.macro? name lineage = none →
    Tag.lastImport? name (Chain.tags lineage.reverse) = some template →
    ∃ m q, alone template = some m ∧ Table.find? name m.macros = some q ∧
      Table.find? name macros = some (q.taken m.macros)
  /-- If there is no import of it either, the first include counts that has one; where there is
  none, the name stands for nothing. -/
  included : ∀ name, Chain.macro? name lineage = none →
    Tag.lastImport? name (Chain.tags lineage.reverse) = none →
    Table.find? name macros = Tag.firstSupply? alone name (Chain.tags lineage.reverse)

section

variable {look : String → Except Failure Template} {limit : Int} {alone : String → Option Merged}
  {lineage : List Template} {p : Place} {d d' : Scratch} {es : List Event} {room : Nat}

theorem Finds.includes {active : List String} (h : Finds look limit alone active) :
    Includes look limit (inserted alone) active := fun name es m merged => by
  rw [inserted, h name es m merged, Option.map_some]

/-! ### The macros of a chain

While they are put into the table, one after the other, tags in their bodies may
put others there, under their names as well. A macro of the chain that comes
later takes its place back, and none that is there is ever replaced. -/

theorem ExpandsMacros.runs : ∀ {ms : Table Macro} {d : Scratch} {es : List Event},
    ExpandsMacros look limit p ms d es (.ok ()) d' → Finds look limit alone p.active →
    Roomy p room → (∀ q ∈ ms, q.1 ∈ p.defined) →
    (tourNodes (p.guide (visit room p)) (ms.flatMap fun m => m.2.body)
        (d.resolved.map (·.1))).2 = d'.resolved.map (·.1) ∧
      Writes alone p.defined
        (tourNodes (p.guide (visit room p)) (ms.flatMap fun m => m.2.body)
          (d.resolved.map (·.1))).1 d.macros d'.macros
  | _, _, _, .nil, _, _, _ => ⟨rfl, .nil⟩
  | (name, m) :: ms, d, _, .cons first others, finds, roomy, own => by
    have inner := first.runs finds roomy _ rfl
    obtain ⟨here, further⟩ := List.forall_mem_cons.mp own
    obtain ⟨opened, writes⟩ := others.runs finds roomy further
    rw [List.flatMap_cons, tourNodes_append]
    unfold Tour.andThen
    rw [inner.opened]
    exact ⟨opened, inner.writes.append (writes.put here _)⟩

/-- Names that are not defined any more by the macros to come keep what they have. -/
theorem ExpandsMacros.keeps : ∀ {ms : Table Macro} {d : Scratch} {es : List Event},
    ExpandsMacros look limit p ms d es (.ok ()) d' → Finds look limit alone p.active →
    Roomy p room → ∀ name ∈ p.defined, name ∉ Table.names ms → ∀ q,
      Table.find? name d.macros = some q → Table.find? name d'.macros = some q
  | _, _, _, .nil, _, _, _, _, _, _, found => found
  | (other, m) :: ms, d, _, .cons first others, finds, roomy, name, own, absent, q, found => by
    have differ : name ≠ other := fun e => absent (e ▸ List.mem_cons_self)
    have later : name ∉ Table.names ms := fun h => absent (List.mem_cons_of_mem _ h)
    have kept := (first.runs finds roomy _ rfl).keeps name own q found
    refine others.keeps finds roomy name own later q ?_
    show Table.find? name (Table.put other _ _) = some q
    rw [Table.find?_put_ne differ, kept]

/-- **Each macro of a chain is stored with everything put into its body.** -/
theorem ExpandsMacros.stores : ∀ {ms : Table Macro} {d : Scratch} {es : List Event},
    ExpandsMacros look limit p ms d es (.ok ()) d' → Finds look limit alone p.active →
    Roomy p room → Within lineage p none → Faithful (inserted alone) lineage d →
    (Table.names ms).Nodup → (∀ q ∈ ms, q.1 ∈ p.defined) → ∀ name q,
      Table.find? name ms = some q →
      ∃ body, Table.find? name d'.macros = some (.mk q.parameters body none) ∧
        Settles (filled (inserted alone) lineage q.body) body
  | _, _, _, .nil, _, _, _, _, _, _, _, _, found => nomatch found
  | (other, m) :: ms, d, _, .cons first others, finds, roomy, place, memo, distinct, own, name, q,
      found => by
    rename_i made d₁ _
    obtain ⟨memo', settles⟩ := first.fills place finds.includes memo made rfl
    obtain ⟨new, rest⟩ := List.nodup_cons.mp distinct
    obtain ⟨here, further⟩ := List.forall_mem_cons.mp own
    by_cases same : other = name
    · subst same
      rw [Table.find?, if_pos rfl] at found
      cases found
      have stored : Table.find? other (d₁.bind other (.mk m.parameters made none)).macros =
          some (.mk m.parameters made none) := Table.find?_put _ _ _
      exact ⟨made, others.keeps finds roomy other here new _ stored, settles⟩
    · rw [Table.find?, if_neg same] at found
      exact others.stores finds roomy place memo' rest further name q found

/-- The walk through a chain is the one through its macros and then the one through its content. -/
theorem tags_eq (chain : List Template) :
    Chain.tags chain =
      (tourChain chain ((Chain.macros chain).flatMap fun m => m.2.body) []).1 ++
        (tourChain chain (content chain)
          (tourChain chain ((Chain.macros chain).flatMap fun m => m.2.body) []).2).1 := by
  rw [Chain.tags, tourChain, tourNodes_append]
  rfl

theorem roomy_ofChain (chain : List Template) :
    Roomy (.ofChain [] chain) (Merge.versionCount (Chain.versions chain)) where
  distinct := .nil
  exist := List.nil_subset _
  enough := by simp [length_keys, Place.ofChain]

/-- What a merge writes in all, and what it stores of the chain itself. -/
theorem written_of_chain {chain : List Template} {d₁ : Scratch} {es' : List Event}
    {out : List Node} (finds : Finds look limit alone (Place.ofChain [] chain).active)
    (macros : ExpandsMacros look limit (.ofChain [] chain) (Chain.macros chain) .empty es (.ok ())
      d₁)
    (nodes : Expands look limit (.ofChain [] chain) (content chain) d₁ es' (.ok out) d') :
    Writes alone (Table.names (Chain.macros chain)) (Chain.tags chain) [] d'.macros ∧
      Keeps (Table.names (Chain.macros chain)) d₁.macros d'.macros := by
  have roomy := roomy_ofChain chain
  have own : ∀ q ∈ Chain.macros chain, q.1 ∈ (Place.ofChain [] chain).defined :=
    fun q member => List.mem_map.mpr ⟨q, member, rfl⟩
  obtain ⟨opened, first⟩ := macros.runs finds roomy own
  have then_ := nodes.runs finds roomy out rfl
  have second := then_.writes
  rw [← opened] at second
  rw [tags_eq]
  exact ⟨first.append second, then_.keeps⟩

/-- **A merge leaves the macros as precedence says.** -/
theorem Merges.precedence {leaf : Template} {m : Merged} (h : Merges look limit [] leaf es (.ok m))
    (finds : ∀ active, Finds look limit alone active) :
    ∃ lineage, Lineage look leaf lineage ∧ Precedence alone lineage m.macros := by
  obtain ⟨chain, d, out, d', _, _, _, climb, macros, nodes, rfl, -⟩ := h.expanded
  obtain ⟨lineage, ancestry, all⟩ := lineage_of_climbs climb _ rfl
  rw [List.append_nil] at all
  subst all
  obtain ⟨writes, keeps⟩ := written_of_chain (finds _) macros nodes
  have place : Within lineage (.ofChain [] lineage.reverse) none := ⟨rfl, fun _ => rfl, nofun⟩
  have memo : Faithful (inserted alone) lineage .empty := fun _ _ hl => nomatch hl
  have stores := macros.stores (finds _) (roomy_ofChain _) place memo (Chain.nodup_macros _)
    fun q member => List.mem_map.mpr ⟨q, member, rfl⟩
  have fresh {name : String} (absent : Chain.macro? name lineage = none) :
      name ∉ Table.names (Chain.macros lineage.reverse) := by
    rw [Chain.mem_names_macros, absent]
    exact Bool.false_ne_true
  refine ⟨lineage, ancestry, ⟨fun name q found => ?_, fun name template absent last => ?_,
    fun name absent last => ?_⟩⟩
  · have there : Table.find? name (Chain.macros lineage.reverse) = some q := by
      rw [Chain.find?_macros, found]
    have own : name ∈ Table.names (Chain.macros lineage.reverse) := by
      rw [← Table.isSome_find?, there]
      rfl
    obtain ⟨body, stored, settles⟩ := stores name q there
    exact ⟨body, keeps name own _ stored, settles⟩
  · exact writes.last_import (fresh absent) last
  · exact writes.first_supply (fresh absent) last

end

end Merging

namespace Engine

open Merging Substitution

/-- What the template with a name is merged into by itself, if it can be. -/
def alone (e : Engine) (s : Session) (name : String) : Option Merged :=
  match (e.merge name s).1 with
  | .ok m => some m
  | .error _ => none

/-- Templates that a merge leads to are what they are by themselves. -/
theorem finds (e : Engine) (s : Session) (active : List String) :
    Finds (s.answer e.loader) e.limits.nesting (e.alone s) active := fun name es m h => by
  obtain ⟨es', alone⟩ := h.fewer (.refl []) (List.nil_subset active) (Nat.zero_le _) rfl
  have merged : (e.merge name s).1 = .ok m := (e.merge_eq_iff name s (.ok m)).mpr ⟨es', alone⟩
  simp only [Engine.alone, merged]

theorem merge_of_alone {e : Engine} {s : Session} {name : String} {m : Merged}
    (h : e.alone s name = some m) : (e.merge name s).1 = .ok m := by
  unfold alone at h
  split at h
  · rename_i n merged
    cases h
    exact merged
  · cases h

/-- **Which macro a name stands for does not depend on where tags stand.** Of a template that can be
merged, the macro that its chain defines nearest to the leaf goes before the one that is imported
last, and that one before the one of the first include that has one. -/
theorem macro_precedence (e : Engine) (t : Template) (s : Session) (m : Merged)
    (h : (e.mergeTemplate t s).1 = .ok m) :
    ∃ lineage, Lineage (s.answer e.loader) t lineage ∧ Precedence (e.alone s) lineage m.macros := by
  obtain ⟨es, merges⟩ := (e.mergeTemplate_eq_iff t s (.ok m)).mp h
  exact merges.precedence (e.finds s)

/-- A template with a macro that calls another one of it. -/
def lib : Template :=
  .ofNodes "lib" [.definition "a" [] [.text "A"], .definition "b" [] [.output (.call "a" [])]]

/-- A template with a macro of the same name. -/
def kit : Template :=
  .ofNodes "kit" [.definition "b" [] [.text "K"], .definition "c" [] [.text "C"]]

/-- A template that defines one of them itself, and comes to the others by an include in front of an
import. -/
def shop : Template :=
  .ofNodes "shop"
    [.inclusion "kit", .imports "lib" ["a", "b"],
      .block "x" [.definition "a" [] [.text "own"]]]

/-- A session in which these were loaded. -/
def stocked : Session := ⟨[("lib", lib), ("kit", kit)], []⟩

/-- Its own macro, the imported one in spite of the include, and the one that only the include
has. -/
def shopMacros : Table Macro :=
  [("a", .mk [] [.text "own"] none),
    ("b", .mk [] [.output (.call "a" [])]
      (some [("a", .mk [] [.text "A"] none), ("b", .mk [] [.output (.call "a" [])] none)])),
    ("c", .mk [] [.text "C"] none)]

theorem macro_precedence_shop :
    (offline.mergeTemplate shop stocked).1 = .ok ⟨[.block "x" []], shopMacros⟩ ∧
      ∃ lineage, Lineage (stocked.answer offline.loader) shop lineage ∧
        Precedence (offline.alone stocked) lineage shopMacros := by
  have merges : (offline.mergeTemplate shop stocked).1 = .ok ⟨[.block "x" []], shopMacros⟩ := by
    decide +kernel
  exact ⟨merges, macro_precedence offline shop stocked _ merges⟩

/-- Where the tags stand in it. -/
example : Chain.tags [shop] = [.inclusion "kit", .imports "lib" ["a", "b"]] := by decide

end Engine

end Stencil
