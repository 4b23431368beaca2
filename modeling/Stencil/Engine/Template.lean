/-
# Templates

A template is compiled once: its blocks and macros are gathered from all levels
of its tree, and the definitions of macros at its top level are taken out of
it. Of two blocks with one name the first counts, of two macros the last.

Key definitions: `Node.walk`, `Template`, `Template.compile`.
-/
import Stencil.Parser.Statement

namespace Stencil

mutual

/-- A node and all nodes in its bodies, each before the ones inside it. -/
def Node.walk : Node → List Node
  | .loop item source filter body => .loop item source filter body :: walkAll body
  | .choice c body rest => .choice c body rest :: walkAll body ++ rest.walk
  | .block name body => .block name body :: walkAll body
  | .definition name parameters body => .definition name parameters body :: walkAll body
  | n => [n]

/-- All nodes in the bodies of a choice. -/
def Alternative.walk : Alternative → List Node
  | .choice _ body rest => walkAll body ++ rest.walk
  | .otherwise body => walkAll body

/-- Nodes at every level, in the order of the source. -/
def walkAll : List Node → List Node
  | [] => []
  | n :: ns => n.walk ++ walkAll ns

end

namespace Template

/-- A table with the block that a node is, unless there is one of its name. -/
def addBlock (t : Table (List Node)) : Node → Table (List Node)
  | .block name body => Table.putAbsent name body t
  | _ => t

/-- The first block of each name. -/
def gatherBlocks (nodes : List Node) : Table (List Node) :=
  nodes.foldl addBlock []

/-- A table with the macro that a node defines. -/
def addMacro (t : Table Macro) : Node → Table Macro
  | .definition name parameters body => Table.put name (.mk parameters body none) t
  | _ => t

/-- The last macro of each name. -/
def gatherMacros (nodes : List Node) : Table Macro :=
  nodes.foldl addMacro []

def isDefinition : Node → Bool
  | .definition _ _ _ => true
  | _ => false

/-- The template that the first `extends` tag at the top level names. -/
def findParent : List Node → Option String
  | [] => none
  | .inherit template :: _ => some template
  | _ :: ns => findParent ns

end Template

/-- A template with what is gathered from its tree. -/
structure Template where
  name : String
  /-- The nodes as they stand in the source. -/
  tree : List Node
  /-- The nodes at the top level, less the definitions of macros. -/
  nodes : List Node
  /-- The body of every block, at whatever level it stands. -/
  blocks : Table (List Node)
  /-- The macros, at whatever level they are defined. -/
  macros : Table Macro
  /-- The template that this one extends. -/
  parent : Option String
  nodes_eq : nodes = tree.filter fun n => !Template.isDefinition n
  blocks_eq : blocks = Template.gatherBlocks (walkAll tree)
  macros_eq : macros = Template.gatherMacros (walkAll tree)
  parent_eq : parent = Template.findParent tree

namespace Template

/-- The template with some nodes. -/
def ofNodes (name : String) (nodes : List Node) : Template :=
  let all := walkAll nodes
  { name, tree := nodes, nodes := nodes.filter fun n => !isDefinition n, blocks := gatherBlocks all,
    macros := gatherMacros all, parent := findParent nodes, nodes_eq := rfl, blocks_eq := rfl,
    macros_eq := rfl, parent_eq := rfl }

/-- The template with some source; an error in the source is one of this template. -/
def compile (name source : String) : Except Failure Template :=
  match parseTemplate source with
  | .ok nodes => .ok (ofNodes name nodes)
  | .error e => .error (e.withTemplate name)

end Template

end Stencil
