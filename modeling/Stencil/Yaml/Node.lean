/-
# Nodes of YAML

A document of YAML is made of scalars, lists and mappings, each with a tag that
says what it is. Tags are given or follow from the form of the node.

A node may stand in several places, even inside itself: it can be given a name
and be referred to by it. So nodes are numbered, and lists and mappings hold the
numbers of others.

Key definitions: `Yaml.Tag`, `Yaml.Node`, `Yaml.Graph`.
-/
namespace Stencil.Yaml

inductive Tag where
  | null
  | bool
  | int
  | float
  | moment
  | text
  | list
  | mapping
  /-- The key of a mapping to take entries from. -/
  | merge
  /-- A scalar that is text as a key and nothing otherwise. -/
  | standard
  /-- A tag without a meaning. -/
  | other
  deriving DecidableEq, Repr

/-- The tags that have a name. -/
def Tag.names : List (String × Tag) := [
  ("tag:yaml.org,2002:null", null), ("tag:yaml.org,2002:bool", bool),
  ("tag:yaml.org,2002:int", int), ("tag:yaml.org,2002:float", float),
  ("tag:yaml.org,2002:timestamp", moment), ("tag:yaml.org,2002:str", text),
  ("tag:yaml.org,2002:seq", list), ("tag:yaml.org,2002:map", mapping),
  ("tag:yaml.org,2002:merge", merge), ("tag:yaml.org,2002:value", standard)]

/-- The tag with a name. -/
def Tag.ofName (name : List Char) : Tag :=
  (names.lookup (String.ofList name)).getD other

inductive Node where
  | scalar (tag : Tag) (text : List Char)
  | list (tag : Tag) (items : List Nat)
  /-- `unique` says that no key may stand twice. -/
  | mapping (tag : Tag) (unique : Bool) (entries : List (Nat × Nat))

instance : Inhabited Node := ⟨.scalar .null []⟩

def Node.tag : Node → Tag
  | scalar tag _ => tag
  | list tag _ => tag
  | mapping tag _ _ => tag

/-- The nodes of a document by their numbers, and the number of its root. -/
structure Graph where
  nodes : Array Node
  root : Nat

end Stencil.Yaml
