/-
# Templates as trees

A template is a list of nodes: text, output of an expression, and the tags with
their bodies. Expressions are literals, paths of variables and calls, with at
most one filter on each; conditions test a path alone or compare it with a
literal.

Key definitions: `FilterSpec`, `Expr`, `Operator`, `Condition`, `Node`,
`Alternative`, `Node.childBodies`, `Macro`.
-/
import Stencil.Value.Compare
import Stencil.Text.Split

namespace Stencil

/-- A filter by name, with the text of its argument if it has one. -/
structure FilterSpec where
  name : String
  argument : Option String
  deriving DecidableEq, Repr

namespace FilterSpec

/-- A name, and after a colon the argument. -/
def text (f : FilterSpec) : String :=
  match f.argument with
  | some argument => f.name ++ ":" ++ argument
  | none => f.name

/-- What stands before the first colon is the name, what stands after it the argument. -/
def ofText (s : String) : FilterSpec :=
  let (name, argument) := Text.cut ':' s.toList
  ⟨String.ofList name, argument.map String.ofList⟩

end FilterSpec

inductive Expr where
  | literal (v : Value)
  /-- Names between points. -/
  | path (p : String)
  /-- A macro or a function with its arguments. -/
  | call (name : String) (arguments : List Expr)
  | filtered (e : Expr) (f : FilterSpec)
  deriving Repr, Inhabited

/-- An operator as it is written. -/
structure Operator where
  symbol : String
  deriving DecidableEq, Repr

/-- A path that is tested, alone or against a literal. -/
structure Condition where
  path : String
  test : Option (Operator × Value)
  deriving Repr

mutual

inductive Node where
  | text (s : String)
  | output (e : Expr)
  | loop (item : String) (source : Expr) (filter : Option FilterSpec) (body : List Node)
  /-- A condition with the body for it, and what is done otherwise. -/
  | choice (c : Condition) (body : List Node) (rest : Alternative)
  | assign (name : String) (e : Expr)
  | inherit (template : String)
  | block (name : String) (body : List Node)
  | inclusion (template : String)
  | definition (name : String) (parameters : List String) (body : List Node)
  | imports (template : String) (names : List String)
  /-- Where the version of the enclosing block in an ancestor goes. -/
  | parent

/-- What is left of a choice when its condition fails: another choice, or a last body. -/
inductive Alternative where
  | choice (c : Condition) (body : List Node) (rest : Alternative)
  | otherwise (body : List Node)

end

namespace Alternative

/-- The bodies of a choice in order. -/
def bodies : Alternative → List (List Node)
  | choice _ body rest => body :: rest.bodies
  | otherwise body => [body]

end Alternative

/-- The bodies inside a node, one level deep. -/
def Node.childBodies : Node → List (List Node)
  | loop _ _ _ body => [body]
  | block _ body => [body]
  | definition _ _ body => [body]
  | choice _ body rest => body :: rest.bodies
  | _ => []

/-- A named piece of a template with parameters. An imported macro carries the table of the macros
that its own template sees; calls in its body go there. -/
inductive Macro where
  | mk (parameters : List String) (body : List Node) (scope : Option (List (String × Macro)))

namespace Macro

def parameters : Macro → List String
  | mk ps _ _ => ps

def body : Macro → List Node
  | mk _ b _ => b

def scope : Macro → Option (Table Macro)
  | mk _ _ s => s

/-- The macro with calls in its body bound to a table. -/
def inScope (m : Macro) (macros : Table Macro) : Macro :=
  mk m.parameters m.body (some macros)

end Macro

end Stencil
