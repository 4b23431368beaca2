/-
# Blocks and their versions

Walking through nodes meets each node in them, with everything inside it. A
template binds the name of a block to the first body that a walk through it
meets, and a chain binds it to these bodies in order, one for each template
that has the block. So whatever block stands somewhere in a template of a chain
has a version in the chain.

Key definitions: `Template.body?`, `Chain.bodies`, `Merging.Covered`.
Key theorems: `walk_subset_walkAll`, `Template.find?_blocks`,
`Chain.find?_versions`, `Merging.covered_of_chain`.
-/
import Stencil.Proofs.Merging

namespace Stencil

theorem walkAll_eq_flatMap (ns : List Node) : walkAll ns = ns.flatMap Node.walk := by
  induction ns with
  | nil => rfl
  | cons n ns ih => rw [walkAll, ih, List.flatMap_cons]

theorem mem_walkAll {m : Node} {ns : List Node} : m ∈ walkAll ns ↔ ∃ n ∈ ns, m ∈ n.walk := by
  rw [walkAll_eq_flatMap, List.mem_flatMap]

@[simp] theorem walkAll_append (ns ms : List Node) : walkAll (ns ++ ms) = walkAll ns ++ walkAll ms := by
  simp [walkAll_eq_flatMap]

theorem mem_walk_self : ∀ n : Node, n ∈ n.walk
  | .loop _ _ _ _ => List.mem_cons_self
  | .choice _ _ _ => by simp [Node.walk]
  | .block _ _ => List.mem_cons_self
  | .definition _ _ _ => List.mem_cons_self
  | .text _ => List.mem_cons_self
  | .output _ => List.mem_cons_self
  | .assign _ _ => List.mem_cons_self
  | .inherit _ => List.mem_cons_self
  | .inclusion _ => List.mem_cons_self
  | .imports _ _ => List.mem_cons_self
  | .parent => List.mem_cons_self

mutual

theorem walk_subset_walk : ∀ n : Node, ∀ m ∈ n.walk, m.walk ⊆ n.walk
  | .loop item source filter body, m, h => by
    rcases List.mem_cons.mp h with rfl | h
    · exact List.Subset.refl _
    · exact List.subset_cons_of_subset _ (walk_subset_walkAll body m h)
  | .choice c body rest, m, h => by
    simp only [Node.walk, List.cons_append, List.mem_cons, List.mem_append] at h ⊢
    rcases h with rfl | h | h
    · simp [Node.walk]
    · exact List.subset_cons_of_subset _ (List.subset_append_of_subset_left _
        (walk_subset_walkAll body m h))
    · exact List.subset_cons_of_subset _ (List.subset_append_of_subset_right _
        (walk_subset_alternative rest m h))
  | .block name body, m, h => by
    rcases List.mem_cons.mp h with rfl | h
    · exact List.Subset.refl _
    · exact List.subset_cons_of_subset _ (walk_subset_walkAll body m h)
  | .definition name parameters body, m, h => by
    rcases List.mem_cons.mp h with rfl | h
    · exact List.Subset.refl _
    · exact List.subset_cons_of_subset _ (walk_subset_walkAll body m h)
  | .text _, m, h => List.mem_singleton.mp h ▸ List.Subset.refl _
  | .output _, m, h => List.mem_singleton.mp h ▸ List.Subset.refl _
  | .assign _ _, m, h => List.mem_singleton.mp h ▸ List.Subset.refl _
  | .inherit _, m, h => List.mem_singleton.mp h ▸ List.Subset.refl _
  | .inclusion _, m, h => List.mem_singleton.mp h ▸ List.Subset.refl _
  | .imports _ _, m, h => List.mem_singleton.mp h ▸ List.Subset.refl _
  | .parent, m, h => List.mem_singleton.mp h ▸ List.Subset.refl _

theorem walk_subset_alternative : ∀ a : Alternative, ∀ m ∈ a.walk, m.walk ⊆ a.walk
  | .choice c body rest, m, h => by
    rcases List.mem_append.mp h with h | h
    · exact List.subset_append_of_subset_left _ (walk_subset_walkAll body m h)
    · exact List.subset_append_of_subset_right _ (walk_subset_alternative rest m h)
  | .otherwise body, m, h => walk_subset_walkAll body m h

/-- A walk that meets a node meets everything inside it. -/
theorem walk_subset_walkAll : ∀ ns : List Node, ∀ m ∈ walkAll ns, m.walk ⊆ walkAll ns
  | n :: ns, m, h => by
    rcases List.mem_append.mp h with h | h
    · exact List.subset_append_of_subset_left _ (walk_subset_walk n m h)
    · exact List.subset_append_of_subset_right _ (walk_subset_walkAll ns m h)

end

theorem walkAll_block_subset {name : String} {body ns : List Node}
    (h : .block name body ∈ walkAll ns) : walkAll body ⊆ walkAll ns :=
  fun _ hm => walk_subset_walkAll ns _ h (List.mem_cons_of_mem _ hm)

theorem walkAll_definition_subset {name : String} {parameters : List String} {body ns : List Node}
    (h : .definition name parameters body ∈ walkAll ns) : walkAll body ⊆ walkAll ns :=
  fun _ hm => walk_subset_walkAll ns _ h (List.mem_cons_of_mem _ hm)

/-- The body of a node that is a block with a name. -/
def Node.body? (name : String) : Node → Option (List Node)
  | .block n body => if n = name then some body else none
  | _ => none

namespace Template

/-- The body of the first block with a name in a template, at whatever level it stands. -/
def body? (name : String) (t : Template) : Option (List Node) :=
  (walkAll t.tree).findSome? (Node.body? name)

theorem gatherBlocks_foldl (name : String) : ∀ (ns : List Node) (t : Table (List Node)),
    Table.find? name (ns.foldl addBlock t) =
      (Table.find? name t).or (ns.findSome? (Node.body? name))
  | [], t => by simp
  | n :: ns, t => by
    rw [List.foldl_cons, gatherBlocks_foldl name ns, List.findSome?_cons]
    cases n with
    | block other body =>
      by_cases h : other = name
      · subst h
        cases ht : Table.find? other t <;> simp [addBlock, Table.find?_putAbsent, Node.body?, ht]
      · simp [addBlock, Table.find?_putAbsent_ne (Ne.symm h), Node.body?, h]
    | _ => simp [addBlock, Node.body?]

/-- The blocks of a template are the first ones of their names. -/
theorem find?_blocks (name : String) (t : Template) : Table.find? name t.blocks = t.body? name := by
  rw [t.blocks_eq, gatherBlocks, gatherBlocks_foldl]
  rfl

theorem nodup_gatherBlocks : ∀ (ns : List Node) (t : Table (List Node)), (Table.names t).Nodup →
    (Table.names (ns.foldl addBlock t)).Nodup
  | [], _, h => h
  | n :: ns, t, h => by
    rw [List.foldl_cons]
    cases n with
    | block name body => exact nodup_gatherBlocks ns _ (Table.nodup_putAbsent h name body)
    | _ => exact nodup_gatherBlocks ns t h

theorem nodup_blocks (t : Template) : (Table.names t.blocks).Nodup := by
  rw [t.blocks_eq]
  exact nodup_gatherBlocks _ [] .nil

theorem body?_isSome {name : String} {body : List Node} {t : Template}
    (h : .block name body ∈ walkAll t.tree) : (t.body? name).isSome :=
  List.findSome?_isSome_iff.mpr ⟨_, h, by simp [Node.body?]⟩

/-- The body of a block is that of a block that a walk meets. -/
theorem block_of_body? {name : String} {body : List Node} {t : Template}
    (h : t.body? name = some body) : .block name body ∈ walkAll t.tree := by
  obtain ⟨n, hn, hb⟩ := List.exists_of_findSome?_eq_some h
  cases n with
  | block other inner =>
    by_cases ho : other = name
    · simp only [Node.body?, if_pos ho, Option.some.injEq] at hb
      exact ho ▸ hb ▸ hn
    · simp only [Node.body?, if_neg ho, reduceCtorEq] at hb
  | _ => cases hb

end Template

namespace Chain

/-- The bodies of the blocks with a name in the templates of a chain. -/
def bodies (name : String) (chain : List Template) : List (List Node) :=
  chain.filterMap (Template.body? name)

theorem versions_blocks (name : String) : ∀ (blocks : Table (List Node)) (t : Table (List (List Node))),
    (Table.names blocks).Nodup →
    Table.find? name (blocks.foldl addVersion t) =
      match Table.find? name blocks with
      | none => Table.find? name t
      | some body => some ((Table.find? name t).getD [] ++ [body])
  | [], t, _ => rfl
  | (other, body) :: blocks, t, h => by
    obtain ⟨new, h⟩ := List.nodup_cons.mp h
    rw [List.foldl_cons, versions_blocks name blocks _ h, Table.find?]
    by_cases ho : other = name
    · subst ho
      have absent : Table.find? other blocks = none := by
        rw [← Option.not_isSome_iff_eq_none]
        exact fun hs => new (Table.isSome_find?.mp hs)
      simp [absent, addVersion]
    · simp [ho, addVersion, Table.find?_put_ne (Ne.symm ho)]

theorem versions_foldl (name : String) : ∀ (chain : List Template) (t : Table (List (List Node))),
    Table.find? name (chain.foldl (fun t template => template.blocks.foldl addVersion t) t) =
      match bodies name chain with
      | [] => Table.find? name t
      | body :: more => some ((Table.find? name t).getD [] ++ (body :: more))
  | [], t => rfl
  | template :: chain, t => by
    rw [List.foldl_cons, versions_foldl name chain, versions_blocks name _ _ template.nodup_blocks,
      Template.find?_blocks]
    unfold bodies
    rw [List.filterMap_cons]
    cases hb : template.body? name with
    | none => simp
    | some body => cases chain.filterMap (Template.body? name) <;> simp

/-- **A chain has the first bodies of a block in its templates, in order**, and none where there
are none. -/
theorem find?_versions {name : String} {chain : List Template} {found : List (List Node)} :
    Table.find? name (versions chain) = some found ↔ bodies name chain = found ∧ found ≠ [] := by
  unfold versions
  rw [versions_foldl]
  cases bodies name chain with
  | nil => simp [Table.find?]
  | cons body more => simp [Table.find?]; grind

end Chain

/-! ### Where the nodes of a chain come from -/

namespace Template

theorem nodes_subset_tree (t : Template) : t.nodes ⊆ t.tree := by
  rw [t.nodes_eq]
  exact fun _ h => (List.mem_filter.mp h).1

theorem gatherMacros_foldl {p : String × Macro} : ∀ (ns : List Node) {t : Table Macro},
    p ∈ ns.foldl addMacro t → p ∈ t ∨
      ∃ parameters body, .definition p.1 parameters body ∈ ns ∧ p.2 = .mk parameters body none
  | [], _, h => .inl h
  | n :: ns, t, h => by
    rw [List.foldl_cons] at h
    rcases gatherMacros_foldl ns h with h | ⟨parameters, body, hn, hp⟩
    · cases n with
      | definition name parameters body =>
        rcases Table.mem_of_mem_put h with rfl | h
        · exact .inr ⟨parameters, body, List.mem_cons_self, rfl⟩
        · exact .inl h
      | _ => exact .inl h
    · exact .inr ⟨parameters, body, List.mem_cons_of_mem _ hn, hp⟩

/-- A macro of a template is one that a walk meets. -/
theorem definition_of_macro {t : Template} {p : String × Macro} (h : p ∈ t.macros) :
    ∃ parameters body, .definition p.1 parameters body ∈ walkAll t.tree ∧
      p.2 = .mk parameters body none := by
  rw [t.macros_eq] at h
  rcases gatherMacros_foldl _ h with h | h
  · cases h
  · exact h

end Template

namespace Chain

theorem macros_foldl {p : String × Macro} : ∀ (chain : List Template) {t : Table Macro},
    p ∈ chain.foldl (fun t template => Table.putAll t template.macros) t →
      p ∈ t ∨ ∃ template ∈ chain, p ∈ template.macros
  | [], _, h => .inl h
  | template :: chain, t, h => by
    rw [List.foldl_cons] at h
    rcases macros_foldl chain h with h | ⟨other, ho, hp⟩
    · exact (Table.mem_of_mem_putAll h).imp_right fun hp => ⟨template, List.mem_cons_self, hp⟩
    · exact .inr ⟨other, List.mem_cons_of_mem _ ho, hp⟩

theorem exists_of_mem_macros {p : String × Macro} {chain : List Template} (h : p ∈ macros chain) :
    ∃ t ∈ chain, p ∈ t.macros := by
  rcases macros_foldl chain h with h | h
  · cases h
  · exact h

theorem exists_of_mem_outside {n : Node} : ∀ {placed : List String} {chain : List Template},
    n ∈ (outside placed chain).1 ∨ n ∈ (outside placed chain).2 → ∃ t ∈ chain, n ∈ t.nodes
  | placed, [], h => by simp [outside] at h
  | placed, t :: chain, h => by
    simp only [outside, List.mem_append, List.mem_filter] at h
    have here (hn : n ∈ t.nodes) : ∃ u ∈ t :: chain, n ∈ u.nodes := ⟨t, List.mem_cons_self, hn⟩
    have further (h : n ∈ (outside (placed ++ Table.names t.blocks) chain).1 ∨
        n ∈ (outside (placed ++ Table.names t.blocks) chain).2) : ∃ u ∈ t :: chain, n ∈ u.nodes := by
      obtain ⟨u, hu, hn⟩ := exists_of_mem_outside h
      exact ⟨u, List.mem_cons_of_mem _ hu, hn⟩
    rcases h with (⟨h, -⟩ | h) | (⟨h, -⟩ | h)
    · exact here h
    · exact further (.inl h)
    · exact here h
    · exact further (.inr h)

end Chain

namespace Merging

theorem exists_of_mem_content {n : Node} : ∀ {chain : List Template}, n ∈ content chain →
    ∃ t ∈ chain, n ∈ t.tree
  | root :: rest, h => by
    simp only [content, Chain.parts, List.mem_append] at h
    rcases h with (h | h) | h
    · obtain ⟨t, ht, hn⟩ := Chain.exists_of_mem_outside (.inl h)
      exact ⟨t, List.mem_cons_of_mem _ ht, t.nodes_subset_tree hn⟩
    · exact ⟨root, List.mem_cons_self, root.nodes_subset_tree h⟩
    · obtain ⟨t, ht, hn⟩ := Chain.exists_of_mem_outside (.inr h)
      exact ⟨t, List.mem_cons_of_mem _ ht, t.nodes_subset_tree hn⟩

/-- What holds of all nodes of the templates of a chain holds of all nodes that its merge
expands: those in the place of the chain, those in versions of blocks and those in macros. -/
structure Everywhere (P : Node → Prop) (versions : Table (List (List Node))) (ns : List Node)
    (macros : Table Macro) : Prop where
  versions : ∀ name found, Table.find? name versions = some found → ∀ body ∈ found,
    ∀ n ∈ walkAll body, P n
  nodes : ∀ n ∈ walkAll ns, P n
  macros : ∀ m ∈ macros, ∀ n ∈ walkAll m.2.body, P n

theorem everywhere_of_chain {P : Node → Prop} {chain : List Template}
    (h : ∀ t ∈ chain, ∀ n ∈ walkAll t.tree, P n) :
    Everywhere P (Chain.versions chain) (content chain) (Chain.macros chain) where
  versions name found hf body hb n hn := by
    obtain ⟨rfl, -⟩ := Chain.find?_versions.mp hf
    obtain ⟨t, ht, hbody⟩ := List.mem_filterMap.mp hb
    exact h t ht n (walkAll_block_subset (Template.block_of_body? hbody) hn)
  nodes n hn := by
    obtain ⟨m, hm, hw⟩ := mem_walkAll.mp hn
    obtain ⟨t, ht, hmt⟩ := exists_of_mem_content hm
    exact h t ht n (mem_walkAll.mpr ⟨m, hmt, hw⟩)
  macros m hm n hn := by
    obtain ⟨t, ht, hmt⟩ := Chain.exists_of_mem_macros hm
    obtain ⟨parameters, body, hd, hbody⟩ := Template.definition_of_macro hmt
    rw [hbody] at hn
    exact h t ht n (walkAll_definition_subset hd hn)

/-- If a node is a block, it has a version. -/
def Covered (versions : Table (List (List Node))) (n : Node) : Prop :=
  ∀ name body, n = .block name body → ∃ found, Table.find? name versions = some found

theorem covered_of_chain {chain : List Template} {t : Template} (ht : t ∈ chain) :
    ∀ n ∈ walkAll t.tree, Covered (Chain.versions chain) n := by
  rintro _ hn name body rfl
  obtain ⟨first, hf⟩ := Option.isSome_iff_exists.mp (Template.body?_isSome hn)
  exact ⟨Chain.bodies name chain, Chain.find?_versions.mpr ⟨rfl, fun none => by
    have : first ∈ Chain.bodies name chain := List.mem_filterMap.mpr ⟨t, ht, hf⟩
    rw [none] at this
    cases this⟩⟩

end Merging

end Stencil
