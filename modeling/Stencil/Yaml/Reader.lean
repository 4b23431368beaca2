/-
# Reading YAML

The tokens of a text make up one document. The reader goes through the tokens
from left to right; what a node is shows at its first token. Where a node may
stand and none does, there is an empty scalar.

A node is numbered and has its name before anything in it is read, so it may be
referred to inside itself.

Key definitions: `Yaml.Feed`, `Yaml.Read.node`, `Yaml.Read.document`,
`Yaml.read?`.
-/
import Stencil.Yaml.Lexer
import Stencil.Yaml.Scalar

namespace Stencil.Yaml

/-- The tokens that are left, the nodes so far, their names, and the short forms of tags. -/
structure Feed where
  tokens : List Token
  nodes : Array Node := #[]
  anchors : List (List Char × Nat) := []
  shortForms : List (List Char × List Char) := []

/-- A step of reading, which may fail. -/
abbrev Read := StateT Feed Option

namespace Read

/-- The next token; there is none at the end. -/
def peek : Read (Option Token) := do
  pure (← get).tokens.head?

def skip : Read Unit :=
  modify fun s => { s with tokens := s.tokens.drop 1 }

/-- The next token has to be the given one. -/
def expect (t : Token) : Read Unit := do
  if (← peek) = some t then skip else failure

/-- The next token is passed over if it is the given one. -/
def optional (t : Token) : Read Bool := do
  if (← peek) = some t then do
    skip
    pure true
  else pure false

/-- An anchor or a tag at the head of a node, or both. -/
structure Properties where
  anchor : Option (List Char) := none
  tag : Option (List Char) := none

/-- The short forms that need not be given. -/
def usualForms : List (List Char × List Char) :=
  [(['!'], ['!']), (['!', '!'], "tag:yaml.org,2002:".toList)]

/-- A tag without short forms. -/
def expand (handle suffix : List Char) : Read (List Char) := do
  if handle.isEmpty then pure suffix
  else
    match ((← get).shortForms ++ usualForms).lookup handle with
    | some expansion => pure (expansion ++ suffix)
    | none => failure

def properties : Read Properties := do
  match ← peek with
  | some (.anchor name) => do
    skip
    match ← peek with
    | some (.tag handle suffix) => do
      skip
      pure ⟨some name, some (← expand handle suffix)⟩
    | _ => pure ⟨some name, none⟩
  | some (.tag handle suffix) => do
    skip
    match ← peek with
    | some (.anchor name) => do
      skip
      pure ⟨some name, some (← expand handle suffix)⟩
    | _ => pure ⟨none, some (← expand handle suffix)⟩
  | _ => pure {}

/-- A further node. -/
def add (n : Node) : Read Nat := do
  let i := (← get).nodes.size
  modify fun s => { s with nodes := s.nodes.push n }
  pure i

/-- What stands under a number. -/
def place (i : Nat) (n : Node) : Read Unit :=
  modify fun s => { s with nodes := s.nodes.setIfInBounds i n }

/-- The node that stands where nothing is written. -/
def nothing : Read Nat :=
  add (.scalar (.ofPlain []) [])

/-- The tag of a scalar; an exclamation mark alone means what it would mean without quotes. -/
def scalarTag (tag : Option (List Char)) (s : Scalar) : Tag :=
  match tag with
  | none => if s.quoted then .text else .ofPlain s.text
  | some ['!'] => .ofPlain s.text
  | some name => .ofName name

/-- The tag of an empty scalar that has properties. -/
def emptyTag (tag : Option (List Char)) : Tag :=
  match tag with
  | none => .ofPlain []
  | some ['!'] => .text
  | some name => .ofName name

/-- The tag of a list or a mapping. -/
def treeTag (tag : Option (List Char)) (usual : Tag) : Tag :=
  match tag with
  | none => usual
  | some ['!'] => usual
  | some name => .ofName name

/-- A node gets its name; no other one has it. -/
def bind (anchor : Option (List Char)) (i : Nat) : Read Unit := do
  match anchor with
  | none => pure ()
  | some name =>
    if ((← get).anchors.lookup name).isSome then failure
    else modify fun s => { s with anchors := (name, i) :: s.anchors }

/-- Whether a list or a mapping in block style has nothing where a node may stand. -/
def endsItem : Option Token → Bool
  | some .dash => true
  | some .blockEnd => true
  | _ => false

def endsEntry : Option Token → Bool
  | some .key => true
  | some .value => true
  | some .blockEnd => true
  | _ => false

/-- The same for brackets that are closed by a token. -/
def endsFlow (close : Token) : Option Token → Bool
  | some t => t = .comma || t = close
  | none => false

mutual

/-- A node. In some places it may be a block, and in some a list whose dashes have no block of
their own. The number of turns is larger than the number of tokens asks for. -/
def node : Nat → Bool → Bool → Read Nat
  | 0, _, _ => failure
  | turns + 1, mayBlock, mayDash => do
    match ← peek with
    | some (.alias name) => do
      skip
      match (← get).anchors.lookup name with
      | some i => pure i
      | none => failure
    | _ => do
      let props ← properties
      let i ← nothing
      bind props.anchor i
      place i (← content turns mayBlock mayDash props)
      pure i

/-- What follows the properties of a node. -/
def content : Nat → Bool → Bool → Properties → Read Node
  | 0, _, _, _ => failure
  | turns + 1, mayBlock, mayDash, props => do
    let listTag := treeTag props.tag .list
    let mappingTag := treeTag props.tag .mapping
    match ← peek with
    | some .dash =>
      if mayDash then pure (.list listTag (← dashes turns))
      else empty props
    | some (.scalar s) => do
      skip
      pure (.scalar (scalarTag props.tag s) s.text)
    | some .flowListStart => do
      skip
      pure (.list listTag (← flowItems turns true))
    | some .flowMappingStart => do
      skip
      pure (.mapping mappingTag true (← flowEntries turns true))
    | some .listStart =>
      if mayBlock then do
        skip
        pure (.list listTag (← items turns))
      else empty props
    | some .mappingStart =>
      if mayBlock then do
        skip
        pure (.mapping mappingTag true (← entries turns))
      else empty props
    | _ => empty props

/-- An empty scalar with properties; without any, a node is missing. -/
def empty (props : Properties) : Read Node :=
  if props.anchor.isSome || props.tag.isSome then pure (.scalar (emptyTag props.tag) []) else failure

/-- The items of a list in block style. -/
def items : Nat → Read (List Nat)
  | 0 => failure
  | turns + 1 => do
    if ← optional .blockEnd then pure []
    else
      expect .dash
      let item ← if endsItem (← peek) then nothing else node turns true false
      pure (item :: (← items turns))

/-- The items of a list whose dashes stand in the column of the keys around it. -/
def dashes : Nat → Read (List Nat)
  | 0 => failure
  | turns + 1 => do
    if ← optional .dash then
      let next ← peek
      let item ← if endsItem next || endsEntry next then nothing else node turns true false
      pure (item :: (← dashes turns))
    else pure []

/-- The entries of a mapping in block style. -/
def entries : Nat → Read (List (Nat × Nat))
  | 0 => failure
  | turns + 1 => do
    if ← optional .blockEnd then pure []
    else
      expect .key
      let key ← if endsEntry (← peek) then nothing else node turns true true
      let value ← blockValue turns
      pure ((key, value) :: (← entries turns))

/-- The value of an entry in block style. -/
def blockValue : Nat → Read Nat
  | 0 => failure
  | turns + 1 => do
    if ← optional .value then
      if endsEntry (← peek) then nothing else node turns true true
    else nothing

/-- The items of a list in brackets; one with a colon is a mapping of its own. -/
def flowItems : Nat → Bool → Read (List Nat)
  | 0, _ => failure
  | turns + 1, isFirst => do
    if ← optional .flowListEnd then pure []
    else
      if !isFirst then expect .comma
      if ← optional .flowListEnd then (if isFirst then failure else pure [])
      else
        let item ← if ← optional .key then flowPair turns else node turns false false
        pure (item :: (← flowItems turns false))

/-- The mapping of one key that an item in brackets is. Where the key is left out, a token is
passed over. -/
def flowPair : Nat → Read Nat
  | 0 => failure
  | turns + 1 => do
    let next ← peek
    let key ←
      if next = some .value || endsFlow .flowListEnd next then do
        skip
        nothing
      else node turns false false
    let value ← flowValue turns .flowListEnd
    add (.mapping .mapping true [(key, value)])

/-- The value of an entry in brackets that are closed by a token. -/
def flowValue : Nat → Token → Read Nat
  | 0, _ => failure
  | turns + 1, close => do
    if ← optional .value then
      if endsFlow close (← peek) then nothing else node turns false false
    else nothing

/-- The entries of a mapping in brackets; one without a colon has no value. -/
def flowEntries : Nat → Bool → Read (List (Nat × Nat))
  | 0, _ => failure
  | turns + 1, isFirst => do
    if ← optional .flowMappingEnd then pure []
    else
      if !isFirst then expect .comma
      if ← optional .flowMappingEnd then (if isFirst then failure else pure [])
      else if ← optional .key then
        let next ← peek
        let key ←
          if next = some .value || endsFlow .flowMappingEnd next then nothing
          else node turns false false
        let value ← flowValue turns .flowMappingEnd
        pure ((key, value) :: (← flowEntries turns false))
      else
        let key ← node turns false false
        let value ← nothing
        pure ((key, value) :: (← flowEntries turns false))

end

/-- The directives in front of a document; the version can be given once, and only one is known. -/
def directives : Nat → Bool → Read Unit
  | 0, _ => failure
  | turns + 1, hasVersion => do
    match ← peek with
    | some (.version major minor) =>
      if hasVersion || major ≠ 1 || minor ≠ 1 then failure
      else do
        skip
        directives turns true
    | some (.shortForm handle expansion) => do
      if ((← get).shortForms.lookup handle).isSome then failure
      else
        modify fun s => { s with shortForms := (handle, expansion) :: s.shortForms }
        skip
        directives turns hasVersion
    | _ => pure ()

/-- Whether a document goes on with a token. -/
def isContent : Option Token → Bool
  | some t => match t with
    | .version _ _ => false
    | .shortForm _ _ => false
    | .documentStart => false
    | .documentEnd => false
    | _ => true
  | none => false

/-- The root of the only document; there may be none at all. -/
def document (turns : Nat) : Read (Option Nat) := do
  match ← peek with
  | none => pure none
  | some first =>
    if isContent (some first) || first = .documentEnd then do
      pure (some (← node turns true false))
    else do
      directives turns false
      expect .documentStart
      if isContent (← peek) then pure (some (← node turns true false)) else pure (some (← nothing))

end Read

/-- The one document in a text, if there is any; nothing but marks of its end may follow it. -/
def read? (s : String) : Option (Option Graph) := do
  let tokens ← tokens? s
  let (root, left) ← (Read.document (3 * tokens.length + 6)).run { tokens }
  if left.tokens.all (· = .documentEnd) then some (root.map fun i => ⟨left.nodes, i⟩) else none

end Stencil.Yaml
