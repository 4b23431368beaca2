/-
# Inheritance is substitution

The merge of a chain keeps the versions of blocks that it has resolved and uses
them again. What it keeps is what substitution gives, so what it makes of the
chain is, too. Where substitution would go on for ever because versions stand
inside themselves, the merge fails.

Key definitions: `Merging.Faithful`, `Merging.Within`, `Engine.included`.
Key theorems: `Merging.Expands.fills`, `Merging.Merges.fills`,
`Engine.merge_eq_substitution`.
-/
import Stencil.Proofs.Blame
import Stencil.Proofs.Substitution

namespace Stencil.Merging

open Substitution

/-! ### The merge substitutes

What holds all the way is that each version that is kept is what substitution
gives for it. -/

section

variable (included : String → Option (List Node)) (lineage : List Template)

/-- What stands for the next version of a block, if there is a block. -/
def parentAt (depth : Nat) : Option (String × List Template) → Option (List Node)
  | none => some []
  | some (name, older) => version included lineage depth name older

/-- What nodes stand for that belong to a version of a block with a name, beyond which there are
some templates, or to none. -/
def filling (origin : Option (String × List Template)) (depth : Nat) : Filling :=
  ⟨fun b => version included lineage depth b lineage, parentAt included lineage depth origin, included⟩

/-- The versions that are kept are what substitution gives for them. -/
def Faithful (d : Scratch) : Prop :=
  ∀ key body, d.resolved.lookup key = some body → ∀ part, Stands lineage key part →
    Settles (fun depth => version included lineage depth key.1 part) body

/-- The place is in the chain of the lineage, in a version that the nodes belong to. -/
structure Within (p : Place) (origin : Option (String × List Template)) : Prop where
  versions : p.versions = Chain.versions lineage.reverse
  outside : origin = none → p.enclosing = []
  inside : ∀ name older, origin = some (name, older) → ∃ level,
    p.enclosing.head? = some (name, level) ∧ older <:+ lineage ∧
      (Chain.bodies name older).length = level

end

section

variable {included : String → Option (List Node)} {lineage : List Template} {p : Place}
  {origin : Option (String × List Template)}

theorem version_of_nearest {name : String} {part older : List Template} {body : List Node}
    (h : nearest name part = some (body, older)) (depth : Nat) :
    version included lineage (depth + 1) name part =
      fillNodes (filling included lineage (some (name, older)) depth) body := by
  rw [version, h]
  rfl

theorem version_of_none {name : String} {part : List Template} (h : nearest name part = none)
    (depth : Nat) : version included lineage (depth + 1) name part = some [] := by
  rw [version, h]

namespace Within

theorem noParent (h : Within lineage p origin) (ha : p.above = none) :
    Settles (fun depth => parentAt included lineage depth origin) [] := by
  rcases origin with _ | ⟨name, older⟩
  · exact .const []
  · obtain ⟨level, head, -, length⟩ := h.inside name older rfl
    rcases p with ⟨_, _, _, _ | ⟨⟨other, _ | level⟩, keys⟩⟩
    · cases head
    · cases head
      have none := nearest_eq_none.mpr (List.eq_nil_of_length_eq_zero length)
      exact (Settles.const []).later fun depth => version_of_none none depth
    · cases ha

theorem parent (h : Within lineage p origin) {key : BlockKey} (ha : p.above = some key) :
    ∃ older, origin = some (key.1, older) ∧ Stands lineage key older := by
  rcases p with ⟨_, versions, _, _ | ⟨⟨other, _ | level⟩, keys⟩⟩
  · cases ha
  · cases ha
  · cases ha
    rcases origin with _ | ⟨name, older⟩
    · cases h.outside rfl
    · obtain ⟨level', head, within, length⟩ := h.inside name older rfl
      cases head
      exact ⟨older, rfl, within, length⟩

theorem top (h : Within lineage p origin) {name : String} {found : List (List Node)}
    (hf : Table.find? name p.versions = some found) : Stands lineage (p.top name) lineage where
  within := List.suffix_rfl
  level := by
    have hf' := hf
    rw [h.versions, Chain.find?_versions, bodies_reverse] at hf'
    obtain ⟨rfl, nonempty⟩ := hf'
    have := List.length_pos_iff.mpr nonempty
    simp only [Place.top, hf, Option.getD_some, List.length_reverse] at this ⊢
    omega

end Within

theorem Faithful.keep {d : Scratch} {key : BlockKey} {body : List Node}
    (h : Faithful included lineage d)
    (hb : ∀ part, Stands lineage key part →
      Settles (fun depth => version included lineage depth key.1 part) body) :
    Faithful included lineage (d.keep key body) := by
  intro key' body' hl
  by_cases hk : key' = key
  · subst hk
    simp only [Scratch.keep, List.lookup_cons, beq_self_eq_true, Option.some.injEq] at hl
    exact hl ▸ hb
  · have : (key' == key) = false := by simpa using hk
    simp only [Scratch.keep, List.lookup_cons, this] at hl
    exact h key' body' hl

theorem importNames_resolved {defined : List String} {template : String} {source : Table Macro}
    {d' : Scratch} {r : Except Failure Unit} : ∀ (names : List String) (d : Scratch),
    Merge.importNames defined template source names d = (r, d') → d'.resolved = d.resolved
  | [], d, h => by
    cases (show (Except.ok (), d) = (r, d') from h)
    rfl
  | name :: names, d, h => by
    rcases hm : Table.find? name source with _ | m
    · rw [importNames_missing hm] at h
      cases h
      rfl
    · rw [importNames_found hm] at h
      rw [importNames_resolved names _ h]
      by_cases hd : defined.contains name
      · rw [if_pos hd]
      · rw [if_neg hd]
        rfl

variable {look : String → Except Failure Template} {limit : Int}

/-- Included templates are replaced by what they are merged into. -/
def Includes (look : String → Except Failure Template) (limit : Int)
    (included : String → Option (List Node)) (active : List String) : Prop :=
  ∀ name es m, Reaches look limit active name es (.ok m) → included name = some m.nodes

mutual

theorem ExpandsNode.fills {p : Place} {n : Node} {d : Scratch} {es : List Event}
    {r : Except Failure (List Node)} {d' : Scratch} (h : ExpandsNode look limit p n d es r d')
    {origin : Option (String × List Template)} (place : Within lineage p origin)
    (inc : Includes look limit included p.active) (memo : Faithful included lineage d) :
    ∀ made, r = .ok made → Faithful included lineage d' ∧
      Settles (fun depth => fillNode (filling included lineage origin depth) n) made := by
  match h with
  | .text =>
    rintro _ ⟨⟩
    exact ⟨memo, .const _⟩
  | .output =>
    rintro _ ⟨⟩
    exact ⟨memo, .const _⟩
  | .assign =>
    rintro _ ⟨⟩
    exact ⟨memo, .const _⟩
  | .inherit =>
    rintro _ ⟨⟩
    exact ⟨memo, .const _⟩
  | .definition =>
    rintro _ ⟨⟩
    exact ⟨memo, .const _⟩
  | .block version =>
    have fills := version.fills place inc memo
    intro _ hr
    obtain ⟨body, rfl, rfl⟩ := ok_of_map hr
    obtain ⟨memo', named, settles⟩ := fills body rfl
    obtain ⟨found, hf⟩ := named
    refine ⟨memo', ?_⟩
    simp only [fillNode]
    exact (settles _ (place.top hf)).map _
  | .noParent lowest =>
    rintro _ ⟨⟩
    exact ⟨memo, place.noParent lowest⟩
  | .parent above version =>
    have fills := version.fills place inc memo
    intro made hr
    obtain ⟨older, rfl, stands⟩ := place.parent above
    obtain ⟨memo', -, settles⟩ := fills made hr
    exact ⟨memo', settles older stands⟩
  | .inclusion merged =>
    rintro _ ⟨⟩
    refine ⟨memo, 0, fun depth _ => ?_⟩
    exact inc _ _ _ merged
  | .inclusionFails _ => exact fun _ hr => nomatch hr
  | .imports merged taken =>
    intro _ hr
    obtain ⟨_, rfl, rfl⟩ := ok_of_map hr
    refine ⟨?_, .const _⟩
    unfold Faithful
    rw [importNames_resolved _ _ taken]
    exact memo
  | .importsFails _ => exact fun _ hr => nomatch hr
  | .loop inner =>
    have fills := inner.fills place inc memo
    intro _ hr
    obtain ⟨body, rfl, rfl⟩ := ok_of_map hr
    obtain ⟨memo', settles⟩ := fills body rfl
    refine ⟨memo', ?_⟩
    simp only [fillNode]
    exact settles.map _
  | .choice inner others =>
    obtain ⟨memo', settles⟩ := inner.fills place inc memo _ rfl
    have fills := others.fills place inc memo'
    intro _ hr
    obtain ⟨rest, rfl, rfl⟩ := ok_of_map hr
    obtain ⟨memo'', settles'⟩ := fills rest rfl
    refine ⟨memo'', ?_⟩
    simp only [fillNode]
    exact settles.both settles' _
  | .choiceFails _ => exact fun _ hr => nomatch hr

theorem ExpandsRest.fills {p : Place} {a : Alternative} {d : Scratch} {es : List Event}
    {r : Except Failure Alternative} {d' : Scratch} (h : ExpandsRest look limit p a d es r d')
    {origin : Option (String × List Template)} (place : Within lineage p origin)
    (inc : Includes look limit included p.active) (memo : Faithful included lineage d) :
    ∀ made, r = .ok made → Faithful included lineage d' ∧
      Settles (fun depth => fillAlternative (filling included lineage origin depth) a) made := by
  match h with
  | .choice inner others =>
    obtain ⟨memo', settles⟩ := inner.fills place inc memo _ rfl
    have fills := others.fills place inc memo'
    intro _ hr
    obtain ⟨rest, rfl, rfl⟩ := ok_of_map hr
    obtain ⟨memo'', settles'⟩ := fills rest rfl
    refine ⟨memo'', ?_⟩
    simp only [fillAlternative]
    exact settles.both settles' _
  | .choiceFails _ => exact fun _ hr => nomatch hr
  | .otherwise inner =>
    have fills := inner.fills place inc memo
    intro _ hr
    obtain ⟨body, rfl, rfl⟩ := ok_of_map hr
    obtain ⟨memo', settles⟩ := fills body rfl
    refine ⟨memo', ?_⟩
    simp only [fillAlternative]
    exact settles.map _

theorem Expands.fills {p : Place} {ns : List Node} {d : Scratch} {es : List Event}
    {r : Except Failure (List Node)} {d' : Scratch} (h : Expands look limit p ns d es r d')
    {origin : Option (String × List Template)} (place : Within lineage p origin)
    (inc : Includes look limit included p.active) (memo : Faithful included lineage d) :
    ∀ made, r = .ok made → Faithful included lineage d' ∧
      Settles (fun depth => fillNodes (filling included lineage origin depth) ns) made := by
  match h with
  | .nil =>
    rintro _ ⟨⟩
    exact ⟨memo, .const _⟩
  | .cons first others =>
    obtain ⟨memo', settles⟩ := first.fills place inc memo _ rfl
    have fills := others.fills place inc memo'
    intro _ hr
    obtain ⟨more, rfl, rfl⟩ := ok_of_map hr
    obtain ⟨memo'', settles'⟩ := fills more rfl
    refine ⟨memo'', ?_⟩
    simp only [fillNodes]
    exact settles.both settles' _
  | .consFails _ => exact fun _ hr => nomatch hr

theorem Resolves.fills {p : Place} {key : BlockKey} {d : Scratch} {es : List Event}
    {r : Except Failure (List Node)} {d' : Scratch} (h : Resolves look limit p key d es r d')
    {origin : Option (String × List Template)} (place : Within lineage p origin)
    (inc : Includes look limit included p.active) (memo : Faithful included lineage d) :
    ∀ made, r = .ok made → Faithful included lineage d' ∧
      (∃ found, Table.find? key.1 p.versions = some found) ∧
      ∀ part, Stands lineage key part →
        Settles (fun depth => version included lineage depth key.1 part) made := by
  match h with
  | .noBlock _ => exact fun _ hr => nomatch hr
  | .known named kept =>
    rintro _ ⟨⟩
    exact ⟨memo, ⟨_, named⟩, memo key _ kept⟩
  | .again _ _ _ => exact fun _ hr => nomatch hr
  | .noVersion _ _ _ _ => exact fun _ hr => nomatch hr
  | .opens named _ _ here inner =>
    rename_i made d' _ _
    rintro _ ⟨⟩
    have fills (origin : String × List Template)
        (inside : Within lineage (p.within key) (some origin)) := inner.fills inside inc memo made rfl
    have there := named
    rw [place.versions, Chain.find?_versions] at there
    obtain ⟨rfl, -⟩ := there
    have opened (part : List Template) (hp : Stands lineage key part) :
        Faithful included lineage d' ∧
          Settles (fun depth => version included lineage depth key.1 part) made := by
      obtain ⟨body, older, hn, same, within, length⟩ := hp.nearest
      cases here.symm.trans same
      have inside : Within lineage (p.within key) (some (key.1, older)) :=
        ⟨place.versions, nofun, by
          rintro _ _ ⟨⟩
          exact ⟨key.2, rfl, within, length⟩⟩
      obtain ⟨memo', settles⟩ := fills _ inside
      exact ⟨memo', settles.later fun depth => version_of_nearest hn depth⟩
    have some : key.2 < (Chain.bodies key.1 lineage).length := by
      have := (List.getElem?_eq_some_iff.mp here).1
      rwa [bodies_reverse, List.length_reverse] at this
    obtain ⟨part, hp⟩ := exists_stands some
    exact ⟨(opened part hp).1.keep fun part hp => (opened part hp).2, ⟨_, named⟩,
      fun part hp => (opened part hp).2⟩
  | .opensFails _ _ _ _ _ => exact fun _ hr => nomatch hr

end

theorem ExpandsMacros.fills {p : Place} {ms : Table Macro} {d : Scratch} {es : List Event}
    {d' : Scratch} (h : ExpandsMacros look limit p ms d es (.ok ()) d')
    {origin : Option (String × List Template)} (place : Within lineage p origin)
    (inc : Includes look limit included p.active) (memo : Faithful included lineage d) :
    Faithful included lineage d' := by
  match h with
  | .nil => exact memo
  | .cons first others =>
    obtain ⟨memo', -⟩ := first.fills place inc memo _ rfl
    exact others.fills place inc memo'

/-! ### The layout of a chain

The merge puts imports before the layout as well; they leave nothing there. -/

theorem fillNodes_append (f : Filling) (ms ns : List Node) :
    fillNodes f (ns ++ ms) =
      (fillNodes f ns).bind fun made => (fillNodes f ms).map fun more => made ++ more := by
  induction ns with
  | nil => simp [fillNodes]
  | cons n ns ih =>
    rw [List.cons_append, fillNodes, fillNodes, ih]
    cases fillNode f n <;> cases fillNodes f ns <;> cases fillNodes f ms <;> simp

theorem side_eq_before (placed : List String) (n : Node) :
    decide (Chain.side placed n = .before) =
      match n with | .imports _ _ => true | n => isAssignment n := by
  cases n with
  | text s => by_cases hs : Text.allBlank s.toList <;> simp [Chain.side, isAssignment, hs]
  | block name body =>
    by_cases hn : placed.contains name
    · simp only [Chain.side, hn, if_true, isAssignment]
      rfl
    · simp only [Chain.side, hn, Bool.false_eq_true, if_false, isAssignment]
      rfl
  | _ => rfl

theorem fillNodes_before (f : Filling) (placed : List String) (ns : List Node) :
    fillNodes f (ns.filter fun n => Chain.side placed n = .before) =
      fillNodes f (ns.filter isAssignment) := by
  simp only [side_eq_before]
  induction ns with
  | nil => rfl
  | cons n ns ih =>
    cases n with
    | assign name e =>
      rw [List.filter_cons_of_pos rfl, List.filter_cons_of_pos rfl, fillNodes, fillNodes, ih]
    | imports name names =>
      rw [List.filter_cons_of_pos rfl, List.filter_cons_of_neg Bool.false_ne_true, fillNodes, fillNode,
        ih]
      simp
    | _ => exact ih

theorem side_eq_after {placed : List String} {earlier : List Template}
    (h : ∀ name, placed.contains name = earlier.any fun t => (t.body? name).isSome) (n : Node) :
    decide (Chain.side placed n = .after) = trails earlier n := by
  cases n with
  | text s => by_cases hs : Text.allBlank s.toList <;> simp [Chain.side, trails, hs]
  | block name body =>
    simp only [trails, Chain.side, ← h name]
    by_cases hn : placed.contains name
    · simp only [hn, if_true]
      rfl
    · simp only [hn, Bool.false_eq_true, if_false]
      rfl
  | _ => rfl

theorem contains_names_blocks (t : Template) (name : String) :
    (Table.names t.blocks).contains name = (t.body? name).isSome := by
  rw [← t.find?_blocks, Bool.eq_iff_iff, List.contains_iff_mem, Table.isSome_find?]

theorem outside_eq (f : Filling) : ∀ (chain : List Template) (placed : List String)
    (earlier : List Template),
    (∀ name, placed.contains name = earlier.any fun t => (t.body? name).isSome) →
    fillNodes f (Chain.outside placed chain).1 =
        fillNodes f (chain.flatMap fun t => t.nodes.filter isAssignment) ∧
      (Chain.outside placed chain).2 = trailing earlier chain
  | [], _, _, _ => ⟨rfl, rfl⟩
  | t :: chain, placed, earlier, h => by
    have h' : ∀ name, (placed ++ Table.names t.blocks).contains name =
        (earlier ++ [t]).any fun t => (t.body? name).isSome := fun name => by
      simp only [List.contains_append, h name, contains_names_blocks, List.any_append, List.any_cons,
        List.any_nil, Bool.or_false]
    obtain ⟨before, after⟩ := outside_eq f chain _ _ h'
    constructor
    · simp only [Chain.outside, List.flatMap_cons, fillNodes_append, fillNodes_before, before]
    · simp only [Chain.outside, trailing, after, side_eq_after h]

theorem fillNodes_content (f : Filling) : ∀ chain : List Template,
    fillNodes f (content chain) = fillNodes f (layout chain)
  | [] => rfl
  | root :: later => by
    have h : ∀ name, (Table.names root.blocks).contains name =
        [root].any fun t => (t.body? name).isSome := fun name => by
      simp only [contains_names_blocks, List.any_cons, List.any_nil, Bool.or_false]
    obtain ⟨before, after⟩ := outside_eq f later _ _ h
    simp only [content, Chain.parts, layout, fillNodes_append, before, after]

/-! ### Chains and merges -/

theorem lineage_of_climbs {before : List String} {leaf : String} {chain : List Template}
    {t : Template} {es : List Event} {r : Except Failure (List Template)}
    (h : Climbs look limit before leaf chain t es r) : ∀ all, r = .ok all →
      ∃ lineage, Lineage look t lineage ∧ all = lineage.reverse ++ chain := by
  induction h with
  | circular => exact fun _ hr => nomatch hr
  | tooDeep => exact fun _ hr => nomatch hr
  | lost => exact fun _ hr => nomatch hr
  | root _ _ last =>
    rintro _ ⟨⟩
    exact ⟨_, .root last, rfl⟩
  | parent _ _ next found _ ih =>
    intro all hr
    obtain ⟨lineage, rest, rfl⟩ := ih all hr
    exact ⟨_, .extends next found rest, by simp⟩

/-- A chain is loaded if its names are new and within the limit. -/
theorem climbs_of_lineage {before : List String} {leaf : String} {t : Template}
    {lineage : List Template} (h : Lineage look t lineage) : ∀ {chain : List Template},
      (stack before chain ++ lineage.map Template.name).Nodup →
      ((stack before chain).length : Int) + lineage.length ≤ limit →
      ∃ es, Climbs look limit before leaf chain t es (.ok (lineage.reverse ++ chain)) := by
  have new {names more : List String} {name : String} (h : (names ++ name :: more).Nodup) :
      name ∉ names := fun hn =>
    (List.nodup_append.mp h).2.2 name hn name List.mem_cons_self rfl
  induction h with
  | @root t last =>
    intro chain distinct few
    simp only [List.length_singleton] at few
    exact ⟨_, .root (new distinct) (by omega) last⟩
  | @«extends» t name u us next found rest ih =>
    intro chain distinct few
    simp only [List.length_cons] at few
    have distinct' : (stack before (t :: chain) ++ us.map Template.name).Nodup := by
      rw [stack_cons]
      simpa using distinct
    have few' : ((stack before (t :: chain)).length : Int) + us.length ≤ limit := by
      rw [length_stack_cons]
      omega
    obtain ⟨es, climb⟩ := ih distinct' few'
    exact ⟨_, by simpa using Climbs.parent (new distinct) (by omega) next found climb⟩

/-- What a template is merged into is what substitution comes to. -/
theorem Merges.fills {before : List String} {leaf : Template} {es : List Event} {m : Merged}
    (h : Merges look limit before leaf es (.ok m))
    (inc : ∀ active, before ⊆ active → Includes look limit included active) :
    ∃ lineage, Lineage look leaf lineage ∧ Settles (merged included lineage) m.nodes := by
  obtain ⟨chain, d, out, d', _, _, _, climb, macros, nodes, rfl, -⟩ := h.expanded
  obtain ⟨lineage, ancestry, all⟩ := lineage_of_climbs climb _ rfl
  rw [List.append_nil] at all
  subst all
  have inc' := inc (before ++ lineage.reverse.map Template.name) (List.subset_append_left _ _)
  have place : Within lineage (.ofChain before lineage.reverse) none := ⟨rfl, fun _ => rfl, nofun⟩
  have memo : Faithful included lineage .empty := fun _ _ hl => nomatch hl
  obtain ⟨-, settles⟩ := nodes.fills place inc' (macros.fills place inc' memo) out rfl
  refine ⟨lineage, ancestry, ?_⟩
  unfold merged
  simp only [← fillNodes_content]
  exact settles

theorem lineage_unique {t : Template} {us vs : List Template} (h : Lineage look t us) :
    Lineage look t vs → us = vs := by
  induction h generalizing vs with
  | root last =>
    intro h'
    cases h' with
    | root _ => rfl
    | «extends» next _ _ => cases last.symm.trans next
  | «extends» next found _ ih =>
    intro h'
    cases h' with
    | root last => cases last.symm.trans next
    | «extends» next' found' rest' =>
      cases next.symm.trans next'
      cases found.symm.trans found'
      rw [ih rest']

/-- Where substitution does not come to an end the merge fails, and it does so in the chain itself
or in a template that the chain leads to. -/
theorem Merges.fails {leaf : Template} {es : List Event} {r : Except Failure Merged}
    (h : Merges look limit [] leaf es r) {lineage : List Template} (ancestry : Lineage look leaf lineage)
    (distinct : (lineage.map Template.name).Nodup) (few : (lineage.length : Int) ≤ limit)
    (inc : ∀ active, Includes look limit included active)
    (endless : ∀ depth, merged included lineage depth = none) :
    ∃ f, r = .error f ∧ Blame look limit (lineage.reverse.map Template.name) f := by
  cases r with
  | ok m =>
    obtain ⟨lineage', ancestry', enough, settles⟩ := h.fills fun active _ => inc active
    cases lineage_unique ancestry ancestry'
    cases (endless enough).symm.trans (settles enough (Nat.le_refl _))
  | error f =>
    have climbs : ∃ es, Climbs look limit [] leaf.name [] leaf es (.ok (lineage.reverse ++ [])) :=
      climbs_of_lineage ancestry (by simpa [stack] using distinct) (by simpa [stack] using few)
    obtain ⟨es', climb⟩ := climbs
    rw [List.append_nil] at climb
    exact ⟨f, rfl, h.blame climb⟩

end

end Stencil.Merging

namespace Stencil.Engine

open Merging Substitution

/-- The nodes that the template with a name is merged into by itself, if it can be. -/
def included (e : Engine) (s : Session) (name : String) : Option (List Node) :=
  match (e.merge name s).1 with
  | .ok m => some m.nodes
  | .error _ => none

/-- Where a template is included it is what it is by itself. -/
theorem includes (e : Engine) (s : Session) (active : List String) :
    Includes (s.answer e.loader) e.limits.nesting (e.included s) active := fun name es m h => by
  obtain ⟨es', alone⟩ := h.fewer (.refl []) (List.nil_subset active) (Nat.zero_le _) rfl
  simp only [included, (e.merge_eq_iff name s (.ok m)).mpr ⟨es', alone⟩]

/-- **The merge of a chain is substitution.** What a template is merged into is what substitution
comes to for the templates that it leads to by way of `extends`, once versions may stand inside one
another deep enough. Where substitution does not come to an end, however deep they may stand and
whatever there is for templates that cannot be included, a chain that the guard lets in is not
merged: a block contains itself, unless an import or another template fails before that. -/
theorem merge_eq_substitution (e : Engine) (t : Template) (s : Session) :
    (∀ m, (e.mergeTemplate t s).1 = .ok m →
      ∃ lineage, Lineage (s.answer e.loader) t lineage ∧
        Settles (merged (e.included s) lineage) m.nodes) ∧
    ∀ lineage, Lineage (s.answer e.loader) t lineage → (lineage.map Template.name).Nodup →
      (lineage.length : Int) ≤ e.limits.nesting →
      (∀ depth, merged (fun name => some ((e.included s name).getD [])) lineage depth = none) →
      ∃ f, (e.mergeTemplate t s).1 = .error f ∧
        Blame (s.answer e.loader) e.limits.nesting (lineage.reverse.map Template.name) f := by
  obtain ⟨es, h⟩ := (e.mergeTemplate_eq_iff t s _).mp rfl
  constructor
  · intro m hm
    rw [hm] at h
    exact h.fills fun active _ => e.includes s active
  · intro lineage ancestry distinct few endless
    refine h.fails ancestry distinct few (fun active name es m merged => ?_) endless
    rw [e.includes s active name es m merged, Option.getD_some]

/-- An engine with no sources. -/
def offline : Engine := ⟨.ofTable [], [], [], {}⟩

/-- A template with a block. -/
def page : Template := .ofNodes "page" [.text "a", .block "b" [.text "B"], .text "c"]

/-- A session in which it was loaded. -/
def paged : Session := ⟨[("page", page)], []⟩

/-- A template that puts something after what the block of a page shows. -/
def longer : Template := .ofNodes "longer" [.inherit "page", .block "b" [.parent, .text "L"]]

/-- A template with a block inside the block itself. -/
def endless : Template := .ofNodes "endless" [.block "b" [.block "b" []]]

theorem version_endless (included : String → Option (List Node)) : ∀ depth,
    version included [endless] depth "b" [endless] = none
  | 0 => rfl
  | depth + 1 => by
    have near : nearest "b" [endless] = some ([.block "b" []], []) := by decide
    rw [version, near]
    simp [fillNodes, fillNode, version_endless included depth]

theorem merge_eq_substitution_page :
    (∃ lineage, Lineage (paged.answer offline.loader) longer lineage ∧
      Settles (merged (offline.included paged) lineage)
        [.text "a", .block "b" [.text "B", .text "L"], .text "c"]) ∧
    ∃ f, (offline.mergeTemplate endless .fresh).1 = .error f ∧
      Blame (Session.fresh.answer offline.loader) 32 ["endless"] f := by
  have merges : (offline.mergeTemplate longer paged).1 =
      .ok ⟨[.text "a", .block "b" [.text "B", .text "L"], .text "c"], []⟩ := by decide +kernel
  refine ⟨(merge_eq_substitution offline longer paged).1 _ merges,
    (merge_eq_substitution offline endless .fresh).2 [endless] (.root rfl) (by decide) (by decide)
      fun depth => ?_⟩
  have whole : layout [endless].reverse = [.block "b" [.block "b" []]] := rfl
  rw [merged, whole]
  simp [fillNodes, fillNode, version_endless]

end Stencil.Engine
