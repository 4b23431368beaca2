/-
# A merge follows the rules

Whatever a session holds, the merge of a template ends as the rules of merging
say for what names lead to in that session, and it leaves the session as loading
the templates that were requested does. Two bounds in the merge are never what
stops it: there is room for all versions of blocks to be opened, because no
version is opened inside itself, and there is room for as many nested merges as
the limit allows templates.

Key definitions: `Merging.Follows`, `Merging.Obeys`, `Merging.Roomy`,
`Merging.Gives`.
Key theorems: `Merging.expandNodes_follows`, `Merging.resolveBlock_follows`,
`Merging.loadFrom_gives`, `Merging.merge_gives`.
-/
import Stencil.Proofs.Merging
import Mathlib.Data.List.Perm.Subperm

namespace Stencil.Merging

open Merge Session

/-- Work on drafts follows a rule if it ends as the rule says, and loads what was requested. -/
def Follows (loader : Loader) (look : String → Except Failure Template) {α : Type}
    (w : Work Draft α) (rule : Scratch → List Event → Except Failure α → Scratch → Prop) : Prop :=
  ∀ s d, s.answer loader = look →
    ∃ es r d', w ⟨s, d⟩ = (r, ⟨loads loader (requests es) s, d'⟩) ∧ rule d es r d'

section

variable {loader : Loader} {look : String → Except Failure Template} {limit : Int}

namespace Follows

variable {α β : Type} {w : Work Draft α}
  {rule : Scratch → List Event → Except Failure α → Scratch → Prop}
  {rule' : Scratch → List Event → Except Failure β → Scratch → Prop}

theorem pure {a : α} (h : ∀ d, rule d [] (.ok a) d) :
    Follows loader look (Pure.pure a : Work Draft α) rule :=
  fun _ d _ => ⟨[], .ok a, d, rfl, h d⟩

theorem map (hw : Follows loader look w rule) (g : α → β)
    (h : ∀ {d es r d'}, rule d es r d' → rule' d es (r.map g) d') :
    Follows loader look (w >>= fun a => Pure.pure (g a)) rule' := fun s d hs => by
  obtain ⟨es, r, d', run, held⟩ := hw s d hs
  exact ⟨es, r.map g, d', Work.bind_pure_of g run, h held⟩

/-- One piece of work after the other, where the first one may end it all. -/
theorem both {γ : Type} {w₂ : Work Draft β}
    {rule'' : Scratch → List Event → Except Failure γ → Scratch → Prop}
    (hw : Follows loader look w rule) (hw₂ : Follows loader look w₂ rule') (g : α → β → γ)
    (stop : ∀ {d es e d'}, rule d es (.error e) d' →
      ∃ es', requests es' = requests es ∧ rule'' d es' (.error e) d')
    (go : ∀ {d es a d' es' r d''}, rule d es (.ok a) d' → rule' d' es' r d'' →
      ∃ es'', requests es'' = requests es ++ requests es' ∧ rule'' d es'' (r.map (g a)) d'') :
    Follows loader look (w >>= fun a => w₂ >>= fun b => Pure.pure (g a b)) rule'' := fun s d hs => by
  obtain ⟨es, r, d', run, held⟩ := hw s d hs
  cases r with
  | error e =>
    obtain ⟨es', same, held'⟩ := stop held
    exact ⟨es', .error e, d', same ▸ Work.bind_error run, held'⟩
  | ok a =>
    obtain ⟨es', r, d'', run', held'⟩ := hw₂ _ d' ((answer_loads _ _ s).trans hs)
    obtain ⟨es'', both, held''⟩ := go held held'
    refine ⟨es'', r.map (g a), d'', ?_, held''⟩
    rw [both, loads_append]
    exact (Work.bind_ok run).trans (Work.bind_pure_of (g a) run')

end Follows

/-! ### Nodes

A resolver does what the rules want of the tags that lead outside of a list of
nodes; then the nodes become what the rules say. -/

/-- The resolver follows the rules at a place. -/
structure Obeys (loader : Loader) (look : String → Except Failure Template) (limit : Int)
    (p : Place) (r : Resolver) : Prop where
  block name : Follows loader look (r.block name) (Resolves look limit p (p.top name))
  parent : Follows loader look r.parent (ExpandsNode look limit p .parent)
  inclusion name :
    Follows loader look (r.inclusion name) (ExpandsNode look limit p (.inclusion name))
  imports name names :
    Follows loader look (r.imports name names >>= fun _ => Pure.pure [])
      (ExpandsNode look limit p (.imports name names))

variable {p : Place} {r : Resolver}

mutual

theorem expandNode_follows (h : Obeys loader look limit p r) :
    ∀ n, Follows loader look (expandNode r n) (ExpandsNode look limit p n)
  | .block name _ => by
    rw [expandNode]
    exact (h.block name).map _ .block
  | .parent => h.parent
  | .inclusion name => h.inclusion name
  | .imports name names => h.imports name names
  | .inherit _ => .pure fun _ => .inherit
  | .definition _ _ _ => .pure fun _ => .definition
  | .loop _ _ _ body => by
    rw [expandNode]
    exact (expandNodes_follows h body).map _ .loop
  | .choice c body rest => by
    rw [expandNode]
    exact (expandNodes_follows h body).both (expandAlternative_follows h rest) _
      (fun first => ⟨_, rfl, .choiceFails first⟩)
      (fun first others => ⟨_, requests_append _ _, .choice first others⟩)
  | .text _ => .pure fun _ => .text
  | .output _ => .pure fun _ => .output
  | .assign _ _ => .pure fun _ => .assign

theorem expandAlternative_follows (h : Obeys loader look limit p r) :
    ∀ a, Follows loader look (expandAlternative r a) (ExpandsRest look limit p a)
  | .choice c body rest => by
    rw [expandAlternative]
    exact (expandNodes_follows h body).both (expandAlternative_follows h rest) _
      (fun first => ⟨_, rfl, .choiceFails first⟩)
      (fun first others => ⟨_, requests_append _ _, .choice first others⟩)
  | .otherwise body => by
    rw [expandAlternative]
    exact (expandNodes_follows h body).map _ .otherwise

theorem expandNodes_follows (h : Obeys loader look limit p r) :
    ∀ ns, Follows loader look (expandNodes r ns) (Expands look limit p ns)
  | [] => .pure fun _ => .nil
  | n :: ns => by
    rw [expandNodes]
    exact (expandNode_follows h n).both (expandNodes_follows h ns) _
      (fun first => ⟨.expanding p.active :: _, rfl, .consFails first⟩)
      (fun first others =>
        ⟨.expanding p.active :: _ ++ _, requests_append _ _, .cons first others⟩)

end

/-! ### Versions of blocks

A version is opened inside versions that differ from it and from each other, and
there are only so many versions. So there is always room for one that exists. -/

/-- All versions of all blocks. -/
def keys (versions : Table (List (List Node))) : List BlockKey :=
  versions.flatMap fun v => (List.range v.2.length).map fun level => (v.1, level)

theorem length_keys (versions : Table (List (List Node))) :
    (keys versions).length = versionCount versions := by
  simp [keys, versionCount, List.length_flatMap]

theorem mem_keys {versions : Table (List (List Node))} {name : String} {bodies : List (List Node)}
    {level : Nat} (named : Table.find? name versions = some bodies) (h : level < bodies.length) :
    (name, level) ∈ keys versions :=
  List.mem_flatMap.mpr ⟨(name, bodies), Table.mem_of_find? named,
    List.mem_map.mpr ⟨level, List.mem_range.mpr h, rfl⟩⟩

/-- There is room to open versions inside those that the nodes of a place stand in. -/
structure Roomy (p : Place) (room : Nat) : Prop where
  distinct : p.enclosing.Nodup
  exist : p.enclosing ⊆ keys p.versions
  enough : (keys p.versions).length ≤ p.enclosing.length + room

namespace Roomy

variable {key : BlockKey} {room : Nat}

theorem ne_zero (h : Roomy p room) (outside : key ∉ p.enclosing) (ok : key ∈ keys p.versions) :
    room ≠ 0 := by
  rintro rfl
  have distinct : (key :: p.enclosing).Nodup := List.nodup_cons.mpr ⟨outside, h.distinct⟩
  have inside : key :: p.enclosing ⊆ keys p.versions := List.cons_subset.mpr ⟨ok, h.exist⟩
  have few := (List.Nodup.subperm distinct inside).length_le
  have enough := h.enough
  rw [List.length_cons] at few
  omega

theorem within (h : Roomy p (room + 1)) (outside : key ∉ p.enclosing) (ok : key ∈ keys p.versions) :
    Roomy (p.within key) room where
  distinct := List.nodup_cons.mpr ⟨outside, h.distinct⟩
  exist := List.cons_subset.mpr ⟨ok, h.exist⟩
  enough := by
    have enough := h.enough
    simp only [Place.within, List.length_cons]
    omega

end Roomy

/-- The merges of other templates follow the rules. -/
def Arrives (loader : Loader) (look : String → Except Failure Template) (limit : Int)
    (active : List String) (reach : String → Work Draft Merged) : Prop :=
  ∀ name, Follows loader look (reach name) fun d es r d' =>
    d' = d ∧ Reaches look limit active name es r

variable {reach : String → Work Draft Merged}

theorem inclusion_follows (h : Arrives loader look limit p.active reach) (name : String) :
    Follows loader look ((outward reach p.defined).inclusion name)
      (ExpandsNode look limit p (.inclusion name)) := fun s d hs => by
  obtain ⟨es, r, d', run, rfl, merged⟩ := h name s d hs
  cases r with
  | error e => exact ⟨es, _, d', Work.bind_error run, .inclusionFails merged⟩
  | ok m => exact ⟨es, .ok m.nodes, d'.adopt m.macros, Work.bind_ok run, .inclusion merged⟩

theorem imports_follows (h : Arrives loader look limit p.active reach) (name : String)
    (names : List String) :
    Follows loader look ((outward reach p.defined).imports name names >>= fun _ => Pure.pure [])
      (ExpandsNode look limit p (.imports name names)) := fun s d hs => by
  obtain ⟨es, r, d', run, rfl, merged⟩ := h name s d hs
  cases r with
  | error e => exact ⟨es, _, d', Work.bind_error (Work.bind_error run), .importsFails merged⟩
  | ok m =>
    cases taken : importNames p.defined name m.macros names d' with
    | mk r d'' =>
      have hrun : (outward reach p.defined).imports name names ⟨s, d'⟩ =
          (r, ⟨loads loader (requests es) s, d''⟩) :=
        (Work.bind_ok run).trans (by simp only [onScratch, taken])
      exact ⟨es, _, d'', Work.bind_pure_of _ hrun, .imports merged taken⟩

theorem parent_eq_above (o : Outward) (resolve : String → Option Nat → Work Draft (List Node)) :
    (resolver o resolve p.enclosing.head?).parent =
      match p.above with
      | some (name, level) => resolve name (some level)
      | none => Pure.pure [] := by
  rcases p with ⟨active, versions, defined, _ | ⟨⟨name, _ | level⟩, keys⟩⟩ <;> rfl

/-- The version of a block on a level, or else the one that is nearest to the leaf. -/
def Place.version (p : Place) (name : String) : Option Nat → BlockKey
  | some level => (name, level)
  | none => p.top name

theorem resolver_obeys (h : Arrives loader look limit p.active reach)
    {resolve : String → Option Nat → Work Draft (List Node)}
    (hr : ∀ name level, Follows loader look (resolve name level)
      (Resolves look limit p (p.version name level))) :
    Obeys loader look limit p (resolver (outward reach p.defined) resolve p.enclosing.head?) where
  block name := hr name none
  parent := by
    rw [parent_eq_above]
    rcases ha : p.above with _ | ⟨name, level⟩
    · exact .pure fun _ => .noParent ha
    · intro s d hs
      obtain ⟨es, r, d', run, version⟩ := hr name (some level) s d hs
      exact ⟨es, r, d', run, .parent ha version⟩
  inclusion := inclusion_follows h
  imports := imports_follows h

/-- What resolving a version of a block comes to in a draft. -/
theorem resolveBlock_apply (o : Outward) {versions : Table (List (List Node))} {name : String}
    {bodies : List (List Node)} (named : Table.find? name versions = some bodies) (room : Nat)
    (enclosing : List BlockKey) (level : Option Nat) (d : Draft) :
    resolveBlock o versions room enclosing name level d =
      let key := (name, level.getD (bodies.length - 1))
      match d.scratch.resolved.lookup key with
      | some body => (.ok body, d)
      | none =>
        if enclosing.contains key then (.error (.of (.selfContained name)), d)
        else
          match bodies[key.2]?, room with
          | none, _ => (.error (.fault .missingVersion), d)
          | some _, 0 => (.error (.of (.selfContained name)), d)
          | some nodes, room + 1 =>
            let resolve := resolveBlock o versions room (key :: enclosing)
            (expandNodes (resolver o resolve (some key)) nodes >>= fun body =>
              onScratch (Work.change (Scratch.keep key body)) >>= fun _ => Pure.pure body) d := by
  conv_lhs => unfold resolveBlock
  rw [named]
  dsimp only
  generalize level.getD (bodies.length - 1) = level
  rw [Work.bind_ok (rfl : onScratch Work.get d = (.ok d.scratch, d))]
  rcases d.scratch.resolved.lookup (name, level) with _ | body
  · by_cases inside : enclosing.contains (name, level)
    · simp only [if_pos inside]
      rfl
    · simp only [if_neg inside]
      rcases bodies[level]? with _ | nodes
      · rfl
      · cases room <;> rfl
  · rfl

theorem resolveBlock_follows : ∀ (room : Nat) {p : Place}, Roomy p room →
    Arrives loader look limit p.active reach → ∀ name level,
    Follows loader look
      (resolveBlock (outward reach p.defined) p.versions room p.enclosing name level)
      (Resolves look limit p (p.version name level))
  | room, p, roomy, h, name, level => fun s d hs => by
    rcases named : Table.find? name p.versions with _ | bodies
    · refine ⟨[], _, d, ?_, .noBlock ?_⟩
      · unfold resolveBlock
        rw [named]
        rfl
      · cases level <;> exact named
    have hkey : p.version name level = (name, level.getD (bodies.length - 1)) := by
      cases level with
      | none => simp [Place.version, Place.top, named]
      | some level => rfl
    rw [hkey, resolveBlock_apply _ named]
    generalize level.getD (bodies.length - 1) = level'
    rcases kept : d.resolved.lookup (name, level') with _ | body
    · simp only [kept]
      by_cases inside : (name, level') ∈ p.enclosing
      · rw [if_pos (List.contains_iff_mem.mpr inside)]
        exact ⟨[], _, d, rfl, .again named kept inside⟩
      rw [if_neg (by simpa using inside)]
      rcases version : bodies[level']? with _ | body
      · exact ⟨[], _, d, rfl, .noVersion named kept inside version⟩
      have exist := mem_keys named (List.getElem?_eq_some_iff.mp version).1
      obtain ⟨room, rfl⟩ := Nat.exists_eq_succ_of_ne_zero (roomy.ne_zero inside exist)
      have inner := resolver_obeys (p := p.within (name, level')) h
        (resolveBlock_follows room (roomy.within inside exist) h)
      obtain ⟨es, r, d', run, held⟩ := expandNodes_follows inner body s d hs
      cases r with
      | error e =>
        exact ⟨es, _, d', Work.bind_error run, .opensFails named kept inside version held⟩
      | ok out =>
        exact ⟨es, .ok out, d'.keep (name, level') out, Work.bind_ok run,
          .opens named kept inside version held⟩
    · simp only [kept]
      exact ⟨[], .ok body, d, rfl, .known named kept⟩

/-! ### Chains and merges -/

theorem expandMacros_follows (h : Obeys loader look limit p r) :
    ∀ ms, Follows loader look (expandMacros r ms) (ExpandsMacros look limit p ms)
  | [] => .pure fun _ => .nil
  | (name, m) :: ms => fun s d hs => by
    rw [expandMacros]
    obtain ⟨es, x, d', run, first⟩ := expandNodes_follows h m.body s d hs
    cases x with
    | error e => exact ⟨es, .error e, d', Work.bind_error run, .consFails first⟩
    | ok body =>
      obtain ⟨es', x, d'', run', others⟩ := expandMacros_follows h ms (loads loader (requests es) s)
        (d'.bind name (.mk m.parameters body none)) ((answer_loads _ _ s).trans hs)
      refine ⟨es ++ es', x, d'', ?_, .cons first others⟩
      rw [requests_append, loads_append]
      exact (Work.bind_ok run).trans run'

theorem expandNodes_append (r : Resolver) (ms : List Node) : ∀ ns,
    expandNodes r (ns ++ ms) =
      expandNodes r ns >>= fun a => expandNodes r ms >>= fun b => Pure.pure (a ++ b)
  | [] => by simp [expandNodes]
  | n :: ns => by
    simp only [List.cons_append, expandNodes, expandNodes_append r ms ns, bind_assoc, pure_bind,
      List.append_assoc]

/-- The three parts of a chain are expanded as one list of nodes. -/
theorem expandChain_eq (o : Outward) (chain : List Template) :
    expandChain o chain = (do
      let versions := Chain.versions chain
      let r := resolver o (resolveBlock o versions (versionCount versions) []) none
      expandMacros r (Chain.macros chain)
      let nodes ← expandNodes r (content chain)
      let d ← onScratch Work.get
      Pure.pure ⟨nodes, d.macros⟩) := by
  simp [expandChain, content, expandNodes_append]

/-- Work on sessions gives what a rule says, and loads what was requested. -/
def Gives (loader : Loader) (look : String → Except Failure Template) {α : Type}
    (w : Work Session α) (rule : List Event → Except Failure α → Prop) : Prop :=
  ∀ s, s.answer loader = look → ∃ es r, w s = (r, loads loader (requests es) s) ∧ rule es r

theorem withDraft_of {α : Type} {w : Work Draft α} {s s' : Session} {r : Except Failure α}
    {d : Scratch} (run : w ⟨s, .empty⟩ = (r, ⟨s', d⟩)) : withDraft w s = (r, s') := by
  simp only [withDraft, run]

theorem expandChain_gives {before : List String} {chain : List Template}
    (h : Arrives loader look limit (before ++ chain.map Template.name) reach)
    {leaf : Template} {es : List Event}
    (climb : Climbs look limit before leaf.name [] leaf es (.ok chain)) :
    Gives loader look
      (withDraft (expandChain (outward reach (Table.names (Chain.macros chain))) chain))
      (fun es' => Merges look limit before leaf (es ++ es')) := fun s hs => by
  have roomy : Roomy (.ofChain before chain) (versionCount (Chain.versions chain)) :=
    ⟨.nil, List.nil_subset _, by simp [length_keys, Place.ofChain]⟩
  have obeys := resolver_obeys (p := .ofChain before chain) h (resolveBlock_follows _ roomy h)
  rw [expandChain_eq]
  obtain ⟨es₁, x, d₁, run₁, macros⟩ :=
    expandMacros_follows obeys (Chain.macros chain) s .empty hs
  cases x with
  | error e =>
    exact ⟨es₁, .error e, withDraft_of (Work.bind_error run₁), .macrosFail climb macros⟩
  | ok _ =>
    obtain ⟨es₂, x, d₂, run₂, nodes⟩ :=
      expandNodes_follows obeys (content chain) _ d₁ ((answer_loads _ _ s).trans hs)
    refine ⟨es₁ ++ es₂, x.map fun nodes => ⟨nodes, d₂.macros⟩, withDraft_of (d := d₂) ?_,
      .expands climb macros nodes⟩
    rw [requests_append, loads_append]
    refine (Work.bind_ok run₁).trans ?_
    cases x with
    | error e => exact Work.bind_error run₂
    | ok out => exact Work.bind_ok run₂

theorem loadFrom_known {before : List String} {chain : List Template} {t : Template}
    (known : t.name ∈ stack before chain) (leaf : String) (room : Nat) :
    Chain.loadFrom loader limit before leaf room chain t =
      Work.fail (.of (.circular (stack before chain ++ [t.name]))) := by
  unfold Chain.loadFrom
  exact if_pos (List.contains_iff_mem.mpr known)

theorem loadFrom_new {before : List String} {chain : List Template} {t : Template}
    (new : t.name ∉ stack before chain) (leaf : String) (room : Nat) :
    Chain.loadFrom loader limit before leaf room chain t =
      match room with
      | 0 => Work.fail (.error ⟨.templateNesting limit, none, some leaf⟩)
      | room + 1 =>
        match t.parent with
        | none => Work.pure (t :: chain)
        | some name =>
          Work.bind (Session.load loader name) fun parent =>
            Chain.loadFrom loader limit before leaf room (t :: chain) parent := by
  conv_lhs => unfold Chain.loadFrom
  exact if_neg fun h => new (List.contains_iff_mem.mp h)

theorem stack_cons (before : List String) (chain : List Template) (t : Template) :
    stack before (t :: chain) = stack before chain ++ [t.name] := by
  simp [stack]

theorem length_stack_cons (before : List String) (chain : List Template) (t : Template) :
    (stack before (t :: chain)).length = (stack before chain).length + 1 := by
  rw [stack_cons, List.length_append, List.length_singleton]

/-- The chain of a leaf is loaded as the rules say; there is room for the templates that the limit
leaves. -/
theorem loadFrom_gives (before : List String) (leaf : String) : ∀ (room : Nat) (chain : List Template)
    (t : Template), room = (limit - (stack before chain).length).toNat →
    Gives loader look (Chain.loadFrom loader limit before leaf room chain t)
      (Climbs look limit before leaf chain t)
  | room, chain, t, hroom => fun s hs => by
    by_cases known : t.name ∈ stack before chain
    · rw [loadFrom_known known]
      exact ⟨_, _, rfl, .circular known⟩
    rw [loadFrom_new known]
    cases room with
    | zero => exact ⟨_, _, rfl, .tooDeep known (by omega)⟩
    | succ room =>
      have fits : ((stack before chain).length : Int) + 1 ≤ limit := by omega
      rcases next : t.parent with _ | name
      · exact ⟨_, .ok (t :: chain), rfl, .root known fits next⟩
      have found := load_result loader name s
      have same := answer_load loader name s
      rw [hs] at found same
      rcases run : Session.load loader name s with ⟨e | parent, s'⟩
      · rw [run] at found
        refine ⟨_, .error e, ?_, .lost known fits next found.symm⟩
        show _ = (_, (Session.load loader name s).2)
        rw [run]
        exact Work.bind_error run
      · rw [run] at found same
        obtain ⟨es, r, run', rest⟩ := loadFrom_gives before leaf room (t :: chain) parent
          (by rw [length_stack_cons]; omega) s' same
        refine ⟨_, r, ?_, .parent known fits next found.symm rest⟩
        show _ = (_, loads loader (requests es) (Session.load loader name s).2)
        rw [run]
        exact (Work.bind_ok run).trans run'

/-- A chain that is loaded goes on from the names in progress, and all of its names are within the
limit. -/
theorem length_of_climbs {before : List String} {leaf : String} {chain : List Template} {t : Template}
    {es : List Event} {r : Except Failure (List Template)}
    (h : Climbs look limit before leaf chain t es r) : ∀ {all}, r = .ok all →
      (stack before chain).length + 1 ≤ (before ++ all.map Template.name).length ∧
      ((before ++ all.map Template.name).length : Int) ≤ limit := by
  induction h with
  | circular => exact nofun
  | tooDeep => exact nofun
  | lost => exact nofun
  | @root chain t new fits last =>
    rintro _ ⟨⟩
    simp [stack] at fits ⊢
    omega
  | @parent chain t name u es r new fits next found rest ih =>
    intro all hr
    obtain ⟨more, few⟩ := ih hr
    rw [length_stack_cons] at more
    exact ⟨by omega, few⟩

/-- Loading a template and merging it goes by the rules if the merge does. -/
theorem reach_gives {active : List String} {merge : Template → Work Session Merged}
    (h : ∀ t, Gives loader look (merge t) (Merges look limit active t)) (name : String) :
    Gives loader look (Work.bind (Session.load loader name) merge)
      (Reaches look limit active name) := fun s hs => by
  have found := load_result loader name s
  have same := answer_load loader name s
  rw [hs] at found same
  rcases run : Session.load loader name s with ⟨e | t, s'⟩
  · rw [run] at found
    refine ⟨[.lost name], .error e, ?_, .lost found.symm⟩
    show _ = (_, (Session.load loader name s).2)
    rw [run]
    exact Work.bind_error run
  · rw [run] at found same
    obtain ⟨es, r, run', merges⟩ := h t s' same
    refine ⟨.found name :: es, r, ?_, .merged found.symm merges⟩
    show _ = (_, loads loader (requests es) (Session.load loader name s).2)
    rw [run]
    exact (Work.bind_ok run).trans run'

theorem arrives_of_gives {active : List String} {w : String → Work Session Merged}
    (h : ∀ name, Gives loader look (w name) (Reaches look limit active name)) :
    Arrives loader look limit active fun name => onSession (w name) := fun name s d hs => by
  obtain ⟨es, r, run, merged⟩ := h name s hs
  exact ⟨es, r, d, by simp only [onSession, run], rfl, merged⟩

/-- **A merge follows the rules.** -/
theorem merge_gives : ∀ (room : Nat) (before : List String) (leaf : Template),
    (limit - before.length).toNat < room →
    Gives loader look (merge loader limit room before leaf) (Merges look limit before leaf)
  | room + 1, before, leaf, hroom => fun s hs => by
    have climbs : Gives loader look (Chain.load loader limit before leaf)
        (Climbs look limit before leaf.name [] leaf) :=
      loadFrom_gives before leaf.name _ [] leaf (by simp [stack])
    obtain ⟨es, r, run, climb⟩ := climbs s hs
    rw [merge]
    cases r with
    | error e => exact ⟨es, .error e, Work.bind_error run, .refused climb⟩
    | ok chain =>
      obtain ⟨more, few⟩ := length_of_climbs climb rfl
      have fewer : (limit - (before ++ chain.map Template.name).length).toNat < room := by
        simp only [stack, List.reverse_nil, List.map_nil, List.append_nil] at more
        omega
      have arrives : Arrives loader look limit (before ++ chain.map Template.name) _ :=
        arrives_of_gives <| reach_gives fun t =>
          merge_gives room (before ++ chain.map Template.name) t fewer
      obtain ⟨es', r, run', merges⟩ :=
        expandChain_gives arrives climb _ ((answer_loads _ _ s).trans hs)
      refine ⟨es ++ es', r, ?_, merges⟩
      rw [requests_append, loads_append]
      exact (Work.bind_ok run).trans run'

end

end Stencil.Merging
