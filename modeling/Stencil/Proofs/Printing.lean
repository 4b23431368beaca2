/-
# Templates in print

Every node has one printed form: its tokens, with a space between the tokens of a
tag. Text is printed as it is; a string stands in double quotes, unless it contains
one; an integer is in plain decimal; the argument of a filter is always a string; and
a choice with nothing to do otherwise has no `else`.

Fractions have no printed form here. They are the only literals in a tree that was
read for which the printed form is left open.

Key definitions: `Expr.terminals`, `Node.terminals`, `Node.row`, `printed`,
`Node.anyFraction`.
-/
import Stencil.Proofs.Spelling

namespace Stencil

open Terminal Phrase

/-- A constant as it is printed. -/
def Value.terminals : Value → List Terminal
  | .null => [identifier "null"]
  | .bool true => [identifier "true"]
  | .bool false => [identifier "false"]
  | .int n =>
    let digits := number (String.ofList (Number.ofNat n.natAbs))
    if n < 0 then [operator "-", digits] else [digits]
  | .str s => [string s]
  | _ => []

/-- A filter behind its bar: the name, and behind a colon the argument as a string. -/
def FilterSpec.terminals (f : FilterSpec) : List Terminal :=
  let spec := FilterSpec.ofText f.text
  match spec.argument with
  | some argument => [identifier spec.name, operator ":", string argument]
  | none => [identifier spec.name]

/-- A filter with its bar, or nothing. -/
def pipedTerminals : Option FilterSpec → List Terminal
  | some f => fixed .pipe :: f.terminals
  | none => []

mutual

def Expr.terminals : Expr → List Terminal
  | .literal v => v.terminals
  | .path p => [identifier p]
  | .call name es => identifier name :: operator "(" :: Expr.arguments es
  | .filtered e f => e.terminals ++ fixed .pipe :: f.terminals

/-- The arguments of a call and its closing parenthesis. -/
def Expr.arguments : List Expr → List Terminal
  | [] => [operator ")"]
  | e :: es => e.terminals ++ Expr.further es

/-- The arguments behind the first one, each with a comma in front of it, and the parenthesis. -/
def Expr.further : List Expr → List Terminal
  | [] => [operator ")"]
  | e :: es => operator "," :: (e.terminals ++ Expr.further es)

end

def Condition.terminals (c : Condition) : List Terminal :=
  match c.test with
  | some (o, v) => identifier c.path :: operator o.symbol :: v.terminals
  | none => [identifier c.path]

/-- Names with commas between them. -/
def nameTerminals : List String → List Terminal
  | [] => []
  | [name] => [identifier name]
  | name :: names => identifier name :: operator "," :: nameTerminals names

mutual

def Node.terminals : Node → List Terminal
  | .text s => [⟨.text, s⟩]
  | .output e => fixed .variableStart :: (e.terminals ++ [fixed .variableEnd])
  | .loop item source f body =>
    tag .forTag (identifier item :: word .inWord :: (source.terminals ++ pipedTerminals f)) ++
      (Node.row body ++ tag .endforTag [])
  | .choice c body rest => tag .ifTag c.terminals ++ (Node.row body ++ rest.terminals)
  | .assign name e => tag .setTag (identifier name :: operator "=" :: e.terminals)
  | .inherit template => tag .extendsTag [string template]
  | .block name body => tag .blockTag [identifier name] ++ (Node.row body ++ tag .endblockTag [])
  | .inclusion template => tag .includeTag [string template]
  | .definition name parameters body =>
    tag .macroTag (identifier name :: operator "(" :: (nameTerminals parameters ++ [operator ")"])) ++
      (Node.row body ++ tag .endmacroTag [])
  | .imports template names =>
    tag .fromTag (string template :: word .importWord :: nameTerminals names)
  | .parent => tag .parentTag []

/-- Nodes one behind the other. -/
def Node.row : List Node → List Terminal
  | [] => []
  | node :: nodes => node.terminals ++ Node.row nodes

/-- What is done otherwise, up to the end of the choice. -/
def Alternative.terminals : Alternative → List Terminal
  | .choice c body rest => tag .elifTag c.terminals ++ (Node.row body ++ rest.terminals)
  | .otherwise body =>
    if body.isEmpty then tag .endifTag []
    else tag .elseTag [] ++ (Node.row body ++ tag .endifTag [])

end

/-- Nodes as they are printed. -/
def printed (nodes : List Node) : String :=
  String.ofList (spell (Node.row nodes))

/-! ### Fractions -/

def Value.isFraction : Value → Bool
  | .float _ => true
  | _ => false

mutual

/-- Whether a literal outside the arguments of filters is a fraction. -/
def Expr.hasFraction : Expr → Bool
  | .literal v => v.isFraction
  | .path _ => false
  | .call _ es => Expr.anyFraction es
  | .filtered e _ => e.hasFraction

def Expr.anyFraction : List Expr → Bool
  | [] => false
  | e :: es => e.hasFraction || Expr.anyFraction es

end

def Condition.hasFraction (c : Condition) : Bool :=
  match c.test with
  | some (_, v) => v.isFraction
  | none => false

mutual

def Node.hasFraction : Node → Bool
  | .output e => e.hasFraction
  | .loop _ source _ body => source.hasFraction || Node.anyFraction body
  | .choice c body rest => c.hasFraction || (Node.anyFraction body || rest.hasFraction)
  | .assign _ e => e.hasFraction
  | .block _ body => Node.anyFraction body
  | .definition _ _ body => Node.anyFraction body
  | _ => false

def Node.anyFraction : List Node → Bool
  | [] => false
  | node :: nodes => node.hasFraction || Node.anyFraction nodes

def Alternative.hasFraction : Alternative → Bool
  | .choice c body rest => c.hasFraction || (Node.anyFraction body || rest.hasFraction)
  | .otherwise body => Node.anyFraction body

end

end Stencil
