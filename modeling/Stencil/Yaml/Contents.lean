/-
# What nodes of YAML stand for

A scalar stands for a value, a list for other nodes in order, and a mapping for
keys that lead to other nodes. Nodes are made one after the other, starting with
the root: a scalar at once, a list or a mapping first without its contents, which
are made level by level. What is wrong on an upper level so counts before what is
wrong below. Only keys are made whole at once. Each node is made once, in how
many places it may stand.

A mapping may take over entries of others: those of the values of its merge
keys, which are mappings or lists of mappings. Its own entries go over them, and
of a list the first mapping counts most. Where nothing is taken over, no key may
stand twice.

Key definitions: `Yaml.Contents`, `Yaml.Make`, `Yaml.Make.takeOver`,
`Yaml.Make.make`, `Yaml.Make.fill`, `Yaml.Graph.contents`.
-/
import Stencil.Yaml.Key
import Stencil.Yaml.Node
import Stencil.Yaml.Scalar

namespace Stencil.Yaml

inductive Contents where
  | scalar (v : Value)
  | list (items : List Nat)
  | mapping (entries : List (Value × Nat))
  deriving Inhabited

/-- Nodes, and what has been made of them. -/
structure Draft where
  nodes : Array Node
  contents : Array (Option Contents)
  /-- The lists and mappings whose contents are made next, last one first. -/
  later : List Nat := []

/-- A step of making, which may fail. -/
abbrev Make := StateT Draft (Except Problem)

namespace Make

def node (i : Nat) : Make Node := do
  pure ((← get).nodes.getD i default)

def setNode (i : Nat) (n : Node) : Make Unit :=
  modify fun s => { s with nodes := s.nodes.setIfInBounds i n }

def contents (i : Nat) : Make (Option Contents) := do
  pure ((← get).contents.getD i none)

def setContents (i : Nat) (c : Contents) : Make Unit :=
  modify fun s => { s with contents := s.contents.setIfInBounds i (some c) }

def isMerge (i : Nat) : Make Bool := do
  pure ((← node i).tag = .merge)

/-- A scalar that is text only as a key is a key. -/
def asKey (i : Nat) : Make Unit := do
  match ← node i with
  | .scalar .standard cs => setNode i (.scalar .text cs)
  | _ => pure ()

/-- The entries of a node that has to be a mapping, once it has taken over others. -/
def entriesOf (takeOver : Nat → Make Unit) (i : Nat) : Make (List (Nat × Nat)) := do
  takeOver i
  match ← node i with
  | .mapping _ _ entries => pure entries
  | _ => throw .malformed

/-- The entries that the value of a merge key has. -/
def sources (takeOver : Nat → Make Unit) (i : Nat) : Make (List (Nat × Nat)) := do
  match ← node i with
  | .list _ items => pure (← items.mapM (entriesOf takeOver)).reverse.flatten
  | _ => entriesOf takeOver i

/-- The entries that are taken over by some merge keys; only the last of them may have any. -/
def taken (takeOver : Nat → Make Unit) : List (Nat × Nat) → Make (List (Nat × Nat))
  | [] => pure []
  | e :: es => do
    let first ← sources takeOver e.2
    if first.isEmpty then taken takeOver es
    else if es.isEmpty then pure first
    else throw .malformed

/-- A mapping takes over what its merge keys lead to. Mappings may do so through one another up to
some depth. -/
def takeOver : Nat → Nat → Make Unit
  | 0, _ => pure ()
  | depth + 1, i => do
    match ← node i with
    | .mapping tag unique entries => do
      let merges ← entries.filterM fun e => isMerge e.1
      let own ← entries.filterM fun e => do pure !(← isMerge e.1)
      own.forM fun e => asKey e.1
      setNode i (.mapping tag unique own)
      let more ← taken (takeOver depth) merges
      if !more.isEmpty then setNode i (.mapping tag false (more ++ own))
    | _ => pure ()

/-- A node as a key: a scalar, or a list of scalars. Other lists are of a kind that can be a key
but are none; mappings are not even that. -/
def key (i : Nat) : Make (Option Value) := do
  match ← contents i with
  | some (.scalar v) => pure (some v)
  | some (.list items) => do
    let values ← items.mapM fun j => do
      match ← contents j with
      | some (.scalar v) => pure (some v)
      | _ => pure none
    pure ((values.mapM id).map Value.tuple)
  | _ => throw .malformed

/-- Why a key cannot stand twice. The complaint shows the key and both values; an integer that is
too long to be shown is what goes wrong then. -/
def duplicate (shown : List Contents) : Problem :=
  let isLong (c : Contents) : Bool := match c with | .scalar v => v.hasLong | _ => false
  if shown.any isLong then .fault .integerTooLong else .malformed

/-- Entries with a further one. A key that is there already gets the new value. -/
def put (key : Value) (i : Nat) : List (Value × Nat) → List (Value × Nat)
  | [] => [(key, i)]
  | e :: es => if Key.same e.1 key then (e.1, i) :: es else e :: put key i es

/-- The entries of a mapping with one more. -/
def addEntry (make : Bool → Nat → Make Unit) (whole unique : Bool) (before : List (Value × Nat))
    (e : Nat × Nat) : Make (List (Value × Nat)) := do
  make true e.1
  let name ← key e.1
  make whole e.2
  match name with
  | none => throw (.fault .unusableKey)
  | some name =>
    match before.find? fun e => Key.same e.1 name with
    | some first =>
      if unique then
        let values ← [first.2, e.2].mapM contents
        throw (duplicate (.scalar name :: values.filterMap id))
      else pure (put name e.2 before)
    | none => pure (before ++ [(name, e.2)])

mutual

/-- What a node stands for; `whole` says that its contents are made as well. A node inside itself
counts as made. -/
def make : Nat → Bool → Nat → Make Unit
  | 0, _, _ => pure ()
  | turns + 1, whole, i => do
    if (← contents i).isSome then pure ()
    else
      match ← node i with
      | .scalar .list _ => start turns whole i (.list [])
      | .list .list _ => start turns whole i (.list [])
      | .mapping .list _ _ => start turns whole i (.list [])
      | .scalar .mapping _ => start turns whole i (.mapping [])
      | .list .mapping _ => start turns whole i (.mapping [])
      | .mapping .mapping _ _ => start turns whole i (.mapping [])
      | .scalar tag cs => do setContents i (.scalar (← scalarValue tag cs))
      | _ => throw .malformed

/-- A list or a mapping that is empty so far. -/
def start : Nat → Bool → Nat → Contents → Make Unit
  | 0, _, _, _ => pure ()
  | turns + 1, whole, i, c => do
    setContents i c
    if whole then fill turns true i else modify fun s => { s with later := i :: s.later }

/-- The contents of a list or a mapping. -/
def fill : Nat → Bool → Nat → Make Unit
  | 0, _, _ => pure ()
  | turns + 1, whole, i => do
    match ← node i with
    | .list .list items => do
      items.forM (make turns whole)
      setContents i (.list items)
    | .mapping .mapping _ _ => do
      takeOver ((← get).nodes.size + 1) i
      match ← node i with
      | .mapping _ unique entries => do
        let made ← entries.foldlM (addEntry (make turns) whole unique) []
        setContents i (.mapping made)
      | _ => pure ()
    | _ => throw .malformed

end

/-- The contents of one level after the other, for some levels. -/
def levels (turns : Nat) : Nat → Make Unit
  | 0 => pure ()
  | more + 1 => do
    let now := (← get).later.reverse
    if !now.isEmpty then
      modify fun s => { s with later := [] }
      now.forM (fill turns false)
      levels turns more

end Make

/-- What the nodes of a document stand for. Each node is begun once, so the turns are enough. -/
def Graph.contents (g : Graph) : Except Problem (Array (Option Contents)) := do
  let turns := 3 * g.nodes.size + 3
  let work : Make Unit := do
    Make.make turns false g.root
    Make.levels turns (g.nodes.size + 1)
  let (_, draft) ← work.run { nodes := g.nodes, contents := g.nodes.map fun _ => none }
  pure draft.contents

end Stencil.Yaml
