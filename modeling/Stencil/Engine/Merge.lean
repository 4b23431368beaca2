/-
# Resolving inheritance, includes and imports

Before a template is rendered, the templates that it leads to are merged into
it. The chain of the templates it extends is loaded; the root of the chain gives
the layout, and every block in it shows the version of the template nearest to
the leaf, where a parent mark shows the next version towards the root.
Assignments and imports of the other templates go before the layout; their
other content goes after it, less blank text and less the blocks that an
ancestor places.

An included template is merged by itself and put in the place of the tag; its
macros are taken over unless their names are in use. An imported macro keeps
the macros of its own template. A macro that the chain itself defines is never
replaced.

Templates in progress may not repeat, and only so many may be in progress at
once. A block may not stand inside a version of itself.

Key definitions: `Merged`, `Chain.load`, `Draft`, `Merge.expandNodes`,
`Merge.resolveBlock`, `Merge.merge`.
-/
import Stencil.Engine.Session
import Stencil.Text.Blank

namespace Stencil

/-- A template that is ready to be rendered. -/
structure Merged where
  nodes : List Node
  macros : Table Macro

/-- A version of a block: its name, and how many versions there are towards the root. -/
abbrev BlockKey := String × Nat

/-- What a merge has made so far: its macros, and the versions of blocks that are resolved. -/
structure Scratch where
  macros : Table Macro
  resolved : List (BlockKey × List Node)

namespace Scratch

def empty : Scratch := ⟨[], []⟩

/-- With a macro under a name. -/
def bind (name : String) (m : Macro) (d : Scratch) : Scratch :=
  { d with macros := Table.put name m d.macros }

/-- With the macros of an included template, where their names are free. -/
def adopt (macros : Table Macro) (d : Scratch) : Scratch :=
  { d with macros := macros.foldl (fun t m => Table.putAbsent m.1 m.2 t) d.macros }

/-- With a resolved version of a block. -/
def keep (key : BlockKey) (body : List Node) (d : Scratch) : Scratch :=
  { d with resolved := (key, body) :: d.resolved }

end Scratch

/-- A merge in progress in a session. -/
structure Draft where
  session : Session
  scratch : Scratch

namespace Chain

/-- The template and the ones it extends, root first. `before` are the names in progress, `chain`
is what was loaded so far, nearest to the root first, and `room` is how many templates may still
be added. -/
def loadFrom (loader : Loader) (limit : Int) (before : List String) (leaf : String) :
    Nat → List Template → Template → Work Session (List Template)
  | room, chain, current =>
    let names := before ++ chain.reverse.map Template.name
    if names.contains current.name then Work.fail (.of (.circular (names ++ [current.name])))
    else
      match room with
      | 0 => Work.fail (.error ⟨.templateNesting limit, none, some leaf⟩)
      | room + 1 =>
        match current.parent with
        | none => Work.pure (current :: chain)
        | some name =>
          Work.bind (Session.load loader name) fun parent =>
            loadFrom loader limit before leaf room (current :: chain) parent

/-- The extends chain of a template, root first. -/
def load (loader : Loader) (limit : Int) (before : List String) (leaf : Template) :
    Work Session (List Template) :=
  loadFrom loader limit before leaf.name (limit - before.length).toNat [] leaf

/-- One more version of a block, nearer to the leaf than the others. -/
def addVersion (t : Table (List (List Node))) (block : String × List Node) :
    Table (List (List Node)) :=
  Table.put block.1 ((Table.find? block.1 t).getD [] ++ [block.2]) t

/-- The bodies of each block from the root to the leaf. -/
def versions (chain : List Template) : Table (List (List Node)) :=
  chain.foldl (fun t template => template.blocks.foldl addVersion t) []

/-- The macros of a chain; the one nearest to the leaf wins. -/
def macros (chain : List Template) : Table Macro :=
  chain.foldl (fun t template => Table.putAll t template.macros) []

/-- Where the top-level nodes of an extending template go. -/
inductive Side where
  | before
  | after
  | nowhere
  deriving DecidableEq

/-- Assignments and imports go before the layout; blocks that an ancestor places, blank text and
the `extends` tag go nowhere; the rest goes after it. -/
def side (placed : List String) : Node → Side
  | .inherit _ => .nowhere
  | .assign _ _ => .before
  | .imports _ _ => .before
  | .block name _ => if placed.contains name then .nowhere else .after
  | .text s => if Text.allBlank s.toList then .nowhere else .after
  | _ => .after

/-- What the templates after the root add before and after the layout. -/
def outside (placed : List String) : List Template → List Node × List Node
  | [] => ([], [])
  | template :: chain =>
    let before := template.nodes.filter fun n => side placed n = .before
    let after := template.nodes.filter fun n => side placed n = .after
    let (moreBefore, moreAfter) := outside (placed ++ Table.names template.blocks) chain
    (before ++ moreBefore, after ++ moreAfter)

/-- The nodes before the layout, the layout, which is that of the root, and the nodes after it. -/
def parts : List Template → List Node × List Node × List Node
  | [] => ([], [], [])
  | root :: rest =>
    let (before, after) := outside (Table.names root.blocks) rest
    (before, root.nodes, after)

end Chain

namespace Merge

/-- How the tags that lead outside of a list of nodes are resolved. -/
structure Resolver where
  block : String → Work Draft (List Node)
  /-- The next version towards the root of the block that the nodes belong to. -/
  parent : Work Draft (List Node)
  inclusion : String → Work Draft (List Node)
  imports : String → List String → Work Draft Unit

mutual

/-- What a node becomes. -/
def expandNode (r : Resolver) : Node → Work Draft (List Node)
  | .block name _ => do
    let body ← r.block name
    pure [.block name body]
  | .parent => r.parent
  | .inclusion template => r.inclusion template
  | .imports template names => do
    r.imports template names
    pure []
  | .inherit _ => pure []
  | .definition _ _ _ => pure []
  | .loop item source filter body => do
    let body ← expandNodes r body
    pure [.loop item source filter body]
  | .choice c body rest => do
    let body ← expandNodes r body
    let rest ← expandAlternative r rest
    pure [.choice c body rest]
  | .text s => pure [.text s]
  | .output e => pure [.output e]
  | .assign name e => pure [.assign name e]

def expandAlternative (r : Resolver) : Alternative → Work Draft Alternative
  | .choice c body rest => do
    let body ← expandNodes r body
    let rest ← expandAlternative r rest
    pure (.choice c body rest)
  | .otherwise body => do
    let body ← expandNodes r body
    pure (.otherwise body)

/-- What nodes become, in order. -/
def expandNodes (r : Resolver) : List Node → Work Draft (List Node)
  | [] => pure []
  | n :: ns => do
    let made ← expandNode r n
    let more ← expandNodes r ns
    pure (made ++ more)

end

/-- Work on the session of a draft. -/
def onSession {α : Type} (w : Work Session α) : Work Draft α := fun d =>
  match w d.session with
  | (r, session) => (r, { d with session })

/-- Work on what a draft has made so far. -/
def onScratch {α : Type} (w : Work Scratch α) : Work Draft α := fun d =>
  match w d.scratch with
  | (r, scratch) => (r, { d with scratch })

/-- How the tags that have to do with other templates are resolved. -/
structure Outward where
  inclusion : String → Work Draft (List Node)
  imports : String → List String → Work Draft Unit

/-- Resolves blocks by the given function; `inside` is the version of a block that the nodes belong
to, if any. -/
def resolver (o : Outward) (resolve : String → Option Nat → Work Draft (List Node))
    (inside : Option BlockKey) : Resolver where
  block name := resolve name none
  parent :=
    match inside with
    | some (name, level + 1) => resolve name (some level)
    | _ => pure []
  inclusion := o.inclusion
  imports := o.imports

/-- A version of a block with everything inside it resolved, the one nearest to the leaf if none
is given. It stands in the versions `enclosing`, and `room` more may be opened inside them; there
is room for all versions, so that one stands inside itself before there is none. -/
def resolveBlock (o : Outward) (versions : Table (List (List Node))) (room : Nat)
    (enclosing : List BlockKey) (name : String) (level : Option Nat) : Work Draft (List Node) :=
  match Table.find? name versions with
  | none => Work.fail (.fault .missingBlock)
  | some bodies => do
    let key := (name, level.getD (bodies.length - 1))
    match (← onScratch Work.get).resolved.lookup key with
    | some body => pure body
    | none =>
      if enclosing.contains key then Work.fail (.of (.selfContained name))
      else
        match bodies[key.2]?, room with
        | none, _ => Work.fail (.fault .missingVersion)
        | some _, 0 => Work.fail (.of (.selfContained name))
        | some nodes, room + 1 => do
          let resolve := resolveBlock o versions room (key :: enclosing)
          let body ← expandNodes (resolver o resolve (some key)) nodes
          onScratch (Work.change (Scratch.keep key body))
          pure body

/-- The number of all versions of all blocks. -/
def versionCount (versions : Table (List (List Node))) : Nat :=
  (versions.flatMap fun v => v.2).length

/-- The macros that an import names. They keep the scope that they have, or get the macros of
their template for it; names that the chain defines are passed over. -/
def importNames (defined : List String) (template : String) (source : Table Macro) :
    List String → Work Scratch Unit
  | [] => pure ()
  | name :: names =>
    match Table.find? name source with
    | none => Work.fail (.of (.macroNotDefined name template))
    | some m => do
      if !defined.contains name then
        Work.change (Scratch.bind name (if m.scope.isSome then m else m.inScope source))
      importNames defined template source names

/-- Tags that lead to other templates, whose merges `reach` gives. -/
def outward (reach : String → Work Draft Merged) (defined : List String) : Outward where
  inclusion name := do
    let merged ← reach name
    onScratch (Work.change (Scratch.adopt merged.macros))
    pure merged.nodes
  imports template names := do
    let merged ← reach template
    onScratch (importNames defined template merged.macros names)

/-- The macros of a chain with their bodies resolved, put into the draft one after the other. -/
def expandMacros (r : Resolver) : Table Macro → Work Draft Unit
  | [] => pure ()
  | (name, m) :: macros => do
    let body ← expandNodes r m.body
    onScratch (Work.change (Scratch.bind name (.mk m.parameters body none)))
    expandMacros r macros

/-- A chain as one template. -/
def expandChain (o : Outward) (chain : List Template) : Work Draft Merged := do
  let versions := Chain.versions chain
  let r := resolver o (resolveBlock o versions (versionCount versions) []) none
  expandMacros r (Chain.macros chain)
  let (before, layout, after) := Chain.parts chain
  let first ← expandNodes r before
  let inner ← expandNodes r layout
  let last ← expandNodes r after
  let d ← onScratch Work.get
  pure ⟨first ++ inner ++ last, d.macros⟩

/-- Work on a new draft in a session. -/
def withDraft {α : Type} (w : Work Draft α) : Work Session α := fun session =>
  match w ⟨session, .empty⟩ with
  | (r, d) => (r, d.session)

/-- A template with all that it leads to; `before` are the names in progress, and `room` is how
many merges may still be nested. Each one adds a name, so that there is no room only where there
are more names than the limit allows. -/
def merge (loader : Loader) (limit : Int) : Nat → List String → Template → Work Session Merged
  | 0, _, leaf => Work.fail (.error ⟨.templateNesting limit, none, some leaf.name⟩)
  | room + 1, before, leaf => do
    let chain ← Chain.load loader limit before leaf
    let active := before ++ chain.map Template.name
    let reach (name : String) : Work Draft Merged :=
      onSession (Work.bind (Session.load loader name) (merge loader limit room active))
    withDraft (expandChain (outward reach (Table.names (Chain.macros chain))) chain)

end Merge

end Stencil
