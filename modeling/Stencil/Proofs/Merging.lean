/-
# The rules of merging

Merging as a set of rules, with no bound on how often or how deep they apply: a
merge ends if there is a derivation of what it ends with. The rules speak of
what names lead to and of the limit on templates in progress, and of nothing
else. Each one that runs into a failure ends there.

The events of a merge are kept in order: a template is loaded, or it cannot be
loaded; a template that was loaded is about to enter, and a node is expanded,
each with the templates in progress at the time. So the events tell which
templates were requested.

Key definitions: `Merging.Event`, `Merging.requests`, `Merging.Place`, `Merging.Climbs`,
`Merging.ExpandsNode`, `Merging.Expands`, `Merging.Resolves`, `Merging.Reaches`,
`Merging.Merges`.
Key theorems: `Merging.Merges.expanded`.
-/
import Stencil.Proofs.Equality
import Stencil.Proofs.Lookup
import Stencil.Engine.Merge

namespace Stencil

-- what fixed sources and templates come to is told by evaluation
deriving instance DecidableEq for Template, Session, Merged

namespace Merging

/-- What happens in a merge, with the names of the templates in progress. -/
inductive Event where
  /-- A template with a name was loaded and is next. -/
  | entering (stack : List String) (name : String)
  /-- A node is expanded. -/
  | expanding (stack : List String)
  /-- The template with a name is loaded. -/
  | found (name : String)
  /-- The template with a name cannot be loaded. -/
  | lost (name : String)

/-- The name that an event requests a template by. -/
def Event.request? : Event → Option String
  | .found name => some name
  | .lost name => some name
  | _ => none

/-- The names that templates were requested by, in order. -/
def requests (es : List Event) : List String :=
  es.filterMap Event.request?

theorem requests_append (es es' : List Event) : requests (es ++ es') = requests es ++ requests es' :=
  List.filterMap_append

/-- Where nodes are expanded. -/
structure Place where
  /-- The templates in progress. -/
  active : List String
  versions : Table (List (List Node))
  /-- The names of the macros that the chain defines. -/
  defined : List String
  /-- The versions of blocks that the nodes stand in, the innermost first. -/
  enclosing : List BlockKey

namespace Place

/-- The place of a chain, with the names in progress before it. -/
def ofChain (before : List String) (chain : List Template) : Place :=
  ⟨before ++ chain.map Template.name, Chain.versions chain, Table.names (Chain.macros chain), []⟩

/-- The place inside a version of a block. -/
def within (p : Place) (key : BlockKey) : Place :=
  { p with enclosing := key :: p.enclosing }

/-- The version of a block that is nearest to the leaf. -/
def top (p : Place) (name : String) : BlockKey :=
  (name, ((Table.find? name p.versions).getD []).length - 1)

/-- The version that a parent mark stands for, if there is one. -/
def above : Place → Option BlockKey
  | ⟨_, _, _, (name, level + 1) :: _⟩ => some (name, level)
  | _ => none

end Place

/-- The nodes of a chain in the order in which they are expanded. -/
def content (chain : List Template) : List Node :=
  let (before, layout, after) := Chain.parts chain
  before ++ layout ++ after

section

variable (look : String → Except Failure Template) (limit : Int)

/-- The names in progress while a chain is loaded, when its templates so far are `chain`, nearest
to the root first. -/
def stack (before : List String) (chain : List Template) : List String :=
  before ++ chain.reverse.map Template.name

/-- The chain of a leaf is loaded, root first, when the next template is `t`. -/
inductive Climbs (before : List String) (leaf : String) :
    List Template → Template → List Event → Except Failure (List Template) → Prop
  | circular {chain t} (known : t.name ∈ stack before chain) :
    Climbs before leaf chain t [.entering (stack before chain) t.name]
      (.error (.of (.circular (stack before chain ++ [t.name]))))
  | tooDeep {chain t} (new : t.name ∉ stack before chain)
    (full : limit < (stack before chain).length + 1) :
    Climbs before leaf chain t [.entering (stack before chain) t.name]
      (.error (.error ⟨.templateNesting limit, none, some leaf⟩))
  | root {chain t} (new : t.name ∉ stack before chain)
    (fits : (stack before chain).length + 1 ≤ limit) (last : t.parent = none) :
    Climbs before leaf chain t [.entering (stack before chain) t.name] (.ok (t :: chain))
  | lost {chain t name f} (new : t.name ∉ stack before chain)
    (fits : (stack before chain).length + 1 ≤ limit) (next : t.parent = some name)
    (found : look name = .error f) :
    Climbs before leaf chain t [.entering (stack before chain) t.name, .lost name] (.error f)
  | parent {chain t name u es r} (new : t.name ∉ stack before chain)
    (fits : (stack before chain).length + 1 ≤ limit) (next : t.parent = some name)
    (found : look name = .ok u) (rest : Climbs before leaf (t :: chain) u es r) :
    Climbs before leaf chain t (.entering (stack before chain) t.name :: .found name :: es) r

mutual

/-- What a node becomes. -/
inductive ExpandsNode : Place → Node → Scratch → List Event → Except Failure (List Node) → Scratch →
    Prop
  | text {p s d} : ExpandsNode p (.text s) d [] (.ok [.text s]) d
  | output {p e d} : ExpandsNode p (.output e) d [] (.ok [.output e]) d
  | assign {p name e d} : ExpandsNode p (.assign name e) d [] (.ok [.assign name e]) d
  | inherit {p name d} : ExpandsNode p (.inherit name) d [] (.ok []) d
  | definition {p name params body d} :
    ExpandsNode p (.definition name params body) d [] (.ok []) d
  | block {p name body d es r d'} (version : Resolves p (p.top name) d es r d') :
    ExpandsNode p (.block name body) d es (r.map fun b => [.block name b]) d'
  | noParent {p d} (lowest : p.above = none) : ExpandsNode p .parent d [] (.ok []) d
  | parent {p key d es r d'} (above : p.above = some key) (version : Resolves p key d es r d') :
    ExpandsNode p .parent d es r d'
  | inclusion {p name d es m} (merged : Reaches p.active name es (.ok m)) :
    ExpandsNode p (.inclusion name) d es (.ok m.nodes) (d.adopt m.macros)
  | inclusionFails {p name d es f} (merged : Reaches p.active name es (.error f)) :
    ExpandsNode p (.inclusion name) d es (.error f) d
  | imports {p name names d es m r d'} (merged : Reaches p.active name es (.ok m))
    (taken : Merge.importNames p.defined name m.macros names d = (r, d')) :
    ExpandsNode p (.imports name names) d es (r.map fun _ => []) d'
  | importsFails {p name names d es f} (merged : Reaches p.active name es (.error f)) :
    ExpandsNode p (.imports name names) d es (.error f) d
  | loop {p item source filter body d es r d'} (inner : Expands p body d es r d') :
    ExpandsNode p (.loop item source filter body) d es
      (r.map fun b => [.loop item source filter b]) d'
  | choice {p c body rest d es b d' es' r d''} (inner : Expands p body d es (.ok b) d')
    (others : ExpandsRest p rest d' es' r d'') :
    ExpandsNode p (.choice c body rest) d (es ++ es') (r.map fun a => [.choice c b a]) d''
  | choiceFails {p c body rest d es f d'} (inner : Expands p body d es (.error f) d') :
    ExpandsNode p (.choice c body rest) d es (.error f) d'

/-- What is left of a choice becomes. -/
inductive ExpandsRest : Place → Alternative → Scratch → List Event → Except Failure Alternative →
    Scratch → Prop
  | choice {p c body rest d es b d' es' r d''} (inner : Expands p body d es (.ok b) d')
    (others : ExpandsRest p rest d' es' r d'') :
    ExpandsRest p (.choice c body rest) d (es ++ es') (r.map fun a => .choice c b a) d''
  | choiceFails {p c body rest d es f d'} (inner : Expands p body d es (.error f) d') :
    ExpandsRest p (.choice c body rest) d es (.error f) d'
  | otherwise {p body d es r d'} (inner : Expands p body d es r d') :
    ExpandsRest p (.otherwise body) d es (r.map .otherwise) d'

/-- What nodes become, in order. -/
inductive Expands : Place → List Node → Scratch → List Event → Except Failure (List Node) → Scratch →
    Prop
  | nil {p d} : Expands p [] d [] (.ok []) d
  | cons {p n ns d es made d' es' r d''} (first : ExpandsNode p n d es (.ok made) d')
    (others : Expands p ns d' es' r d'') :
    Expands p (n :: ns) d (.expanding p.active :: es ++ es') (r.map (made ++ ·)) d''
  | consFails {p n ns d es f d'} (first : ExpandsNode p n d es (.error f) d') :
    Expands p (n :: ns) d (.expanding p.active :: es) (.error f) d'

/-- What a version of a block becomes. -/
inductive Resolves : Place → BlockKey → Scratch → List Event → Except Failure (List Node) → Scratch →
    Prop
  | noBlock {p key d} (unnamed : Table.find? key.1 p.versions = none) :
    Resolves p key d [] (.error (.fault .missingBlock)) d
  | known {p key bodies d body} (named : Table.find? key.1 p.versions = some bodies)
    (kept : d.resolved.lookup key = some body) : Resolves p key d [] (.ok body) d
  | again {p key bodies d} (named : Table.find? key.1 p.versions = some bodies)
    (new : d.resolved.lookup key = none) (inside : key ∈ p.enclosing) :
    Resolves p key d [] (.error (.of (.selfContained key.1))) d
  | noVersion {p key bodies d} (named : Table.find? key.1 p.versions = some bodies)
    (new : d.resolved.lookup key = none) (outside : key ∉ p.enclosing)
    (absent : bodies[key.2]? = none) : Resolves p key d [] (.error (.fault .missingVersion)) d
  | opens {p key bodies body d es out d'} (named : Table.find? key.1 p.versions = some bodies)
    (new : d.resolved.lookup key = none) (outside : key ∉ p.enclosing)
    (version : bodies[key.2]? = some body) (inner : Expands (p.within key) body d es (.ok out) d') :
    Resolves p key d es (.ok out) (d'.keep key out)
  | opensFails {p key bodies body d es f d'} (named : Table.find? key.1 p.versions = some bodies)
    (new : d.resolved.lookup key = none) (outside : key ∉ p.enclosing)
    (version : bodies[key.2]? = some body) (inner : Expands (p.within key) body d es (.error f) d') :
    Resolves p key d es (.error f) d'

/-- The macros of a chain are expanded one after the other. -/
inductive ExpandsMacros : Place → Table Macro → Scratch → List Event → Except Failure Unit → Scratch →
    Prop
  | nil {p d} : ExpandsMacros p [] d [] (.ok ()) d
  | cons {p name m ms d es body d' es' r d''} (first : Expands p m.body d es (.ok body) d')
    (others : ExpandsMacros p ms (d'.bind name (.mk m.parameters body none)) es' r d'') :
    ExpandsMacros p ((name, m) :: ms) d (es ++ es') r d''
  | consFails {p name m ms d es f d'} (first : Expands p m.body d es (.error f) d') :
    ExpandsMacros p ((name, m) :: ms) d es (.error f) d'

/-- What the template with a name is merged into. -/
inductive Reaches : List String → String → List Event → Except Failure Merged → Prop
  | lost {before name f} (found : look name = .error f) :
    Reaches before name [.lost name] (.error f)
  | merged {before name t es r} (found : look name = .ok t) (merge : Merges before t es r) :
    Reaches before name (.found name :: es) r

/-- What a template is merged into; `before` are the names in progress. -/
inductive Merges : List String → Template → List Event → Except Failure Merged → Prop
  | refused {before leaf es f} (climb : Climbs look limit before leaf.name [] leaf es (.error f)) :
    Merges before leaf es (.error f)
  | macrosFail {before leaf es chain es' f d}
    (climb : Climbs look limit before leaf.name [] leaf es (.ok chain))
    (macros : ExpandsMacros (.ofChain before chain) (Chain.macros chain) .empty es' (.error f) d) :
    Merges before leaf (es ++ es') (.error f)
  | expands {before leaf es chain es' d es'' r d'}
    (climb : Climbs look limit before leaf.name [] leaf es (.ok chain))
    (macros : ExpandsMacros (.ofChain before chain) (Chain.macros chain) .empty es' (.ok ()) d)
    (nodes : Expands (.ofChain before chain) (content chain) d es'' r d') :
    Merges before leaf (es ++ (es' ++ es'')) (r.map fun nodes => ⟨nodes, d'.macros⟩)

end

end

/-- The failure that a result is, if any. -/
def failure? {α : Type} : Except Failure α → Option Failure
  | .ok _ => none
  | .error f => some f

@[simp] theorem failure?_map {α β : Type} (f : α → β) (r : Except Failure α) :
    failure? (r.map f) = failure? r := by
  cases r <;> rfl

/-- What is made of a result is there only if the result is. -/
theorem ok_of_map {α β : Type} {f : α → β} {r : Except Failure α} {b : β} (h : r.map f = .ok b) :
    ∃ a, r = .ok a ∧ f a = b := by
  cases r with
  | ok a => exact ⟨a, rfl, Except.ok.inj h⟩
  | error _ => cases h

/-- A merge that succeeds has loaded a chain, and has expanded its macros and its nodes. -/
theorem Merges.expanded {look : String → Except Failure Template} {limit : Int}
    {before : List String} {leaf : Template} {es : List Event} {m : Merged}
    (h : Merges look limit before leaf es (.ok m)) :
    ∃ chain d nodes d' es₁ es₂ es₃,
      Climbs look limit before leaf.name [] leaf es₁ (.ok chain) ∧
      ExpandsMacros look limit (.ofChain before chain) (Chain.macros chain) .empty es₂ (.ok ()) d ∧
      Expands look limit (.ofChain before chain) (content chain) d es₃ (.ok nodes) d' ∧
      m = ⟨nodes, d'.macros⟩ ∧ es = es₁ ++ (es₂ ++ es₃) := by
  generalize same : Except.ok m = r at h
  cases h with
  | refused _ => cases same
  | macrosFail _ _ => cases same
  | expands climb macros expand =>
    obtain ⟨nodes, rfl, rfl⟩ := ok_of_map same.symm
    exact ⟨_, _, nodes, _, _, _, _, climb, macros, expand, rfl, rfl⟩

section

variable {defined : List String} {template name : String} {source : Table Macro}

theorem importNames_missing (h : Table.find? name source = none) (names : List String) (d : Scratch) :
    Merge.importNames defined template source (name :: names) d =
      (.error (.of (.macroNotDefined name template)), d) := by
  unfold Merge.importNames
  rw [h]
  rfl

theorem importNames_found {m : Macro} (h : Table.find? name source = some m) (names : List String)
    (d : Scratch) :
    Merge.importNames defined template source (name :: names) d =
      Merge.importNames defined template source names
        (if defined.contains name then d
        else d.bind name (if m.scope.isSome then m else m.inScope source)) := by
  conv =>
    lhs
    unfold Merge.importNames
  rw [h]
  by_cases hd : defined.contains name
  · simp only [hd, Bool.not_true, if_true, Bool.false_eq_true, if_false]
  · simp only [hd, Bool.not_false, if_true, Bool.false_eq_true, if_false]
    rfl

end

end Merging

end Stencil
