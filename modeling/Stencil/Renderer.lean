/-
# Rendering

A list of nodes is rendered in a frame: a context with the data, local
variables that assignments make, and the macros that can be called. The context
comes before the locals. A loop runs its body once for each item, in a context
of its own that holds all the surrounding variables, and with no locals; so
nothing that is assigned inside a loop is seen outside it. A macro sees its
parameters only.

Rendering gives the text or the first failure, and in either case the locals as
they are then. Bodies of nodes are smaller than the nodes, so recursion through
them needs no bound; calls of macros are bounded by the number of calls that may
still be nested.

Key definitions: `Frame`, `Frame.lookup`, `Renderer`, `Renderer.evaluate`,
`Renderer.renderNodes`, `Renderer.runner`, `Renderer.render`.
-/
import Stencil.Function
import Stencil.Syntax

namespace Stencil

/-- Where names get their values. -/
structure Frame where
  context : Value
  locals : Table Value
  macros : Table Macro

namespace Frame

/-- A part of a value that a segment of a path names. -/
def step (path : String) (v : Value) (segment : String) : Except Failure Value :=
  match v with
  | .object fields =>
    match Table.find? segment fields with
    | some part => .ok part
    | none => .error (.of (.variableNotFound path))
  | v =>
    match v.items? with
    | none => .error (.of (.noParts path segment v.typeName))
    | some items =>
      let cs := segment.toList
      if cs.isEmpty || !cs.all Text.isDigit then .error (.of (.variableNotFound path))
      else
        match Number.parseNat? cs with
        | none => .error (.fault .badIndex)
        | some i =>
          match items[i]? with
          | some part => .ok part
          | none => .error (.of (.variableNotFound path))

/-- The part of a value at the end of a row of segments. -/
def walk (path : String) : Value → List String → Except Failure Value
  | v, [] => .ok v
  | v, segment :: segments =>
    match step path v segment with
    | .ok part => walk path part segments
    | .error e => .error e

/-- The variable with a name: the context comes first, then the locals. -/
def binding (f : Frame) (path name : String) : Except Failure Value :=
  match f.context with
  | .object fields =>
    match (Table.find? name fields).or (Table.find? name f.locals) with
    | some v => .ok v
    | none => .error (.of (.variableNotFound path))
  | _ =>
    match Table.find? name f.locals with
    | some v => .ok v
    | none => .error (.of (.noContext path))

/-- The segments of a path. -/
def segments (path : String) : List String :=
  (Text.splitOn ['.'] path.toList).map String.ofList

/-- The value at the end of a path: a variable, and a part of it for each further segment. -/
def lookup (f : Frame) (path : String) : Except Failure Value :=
  match segments path with
  | [] => f.binding path ""
  | name :: rest =>
    match f.binding path name with
    | .ok v => walk path v rest
    | .error e => .error e

/-- All variables that a frame holds, locals before the context. -/
def visible (f : Frame) : Table Value :=
  Table.putAll (match f.context with | .object fields => fields | _ => []) f.locals

/-- Whether a condition holds. -/
def test (f : Frame) (c : Condition) : Except Failure Bool :=
  match f.lookup c.path with
  | .error e => .error e
  | .ok v =>
    match c.test with
    | none => .ok v.truthy
    | some (op, literal) => v.compare op.symbol literal

end Frame

/-- What a loop tells its body about the item. -/
def loopObject (index length : Nat) : Value :=
  .object [
    ("index", .int (index + 1)),
    ("index0", .int index),
    ("first", .bool (index = 0)),
    ("last", .bool (index + 1 = length)),
    ("length", .int length),
    ("revindex", .int (length - index)),
    ("revindex0", .int (length - index - 1)),
    ("even", .bool (index % 2 = 0)),
    ("odd", .bool (index % 2 = 1))]

/-- The functions and filters that nodes are rendered with, and how deep macros may call macros. -/
structure Renderer where
  functions : Option Registry
  filters : Table Filter
  limit : Int

/-- How the body of a macro is run with its parameters and macros; nothing if calls are nested too
deep already. -/
abbrev Runner := Option (Table Value → Table Macro → List Node → Except Failure String)

namespace Renderer

/-- Whether a failure is that of a variable that is not there. -/
def isMissingVariable : Failure → Bool
  | .error e => e.cause.category.within .rendering && e.cause.code = .variableNotFound
  | .fault _ => false

/-- What a filter gets: the value, or nothing where the filter stands in for missing variables. -/
def operand (f : FilterSpec) : Except Failure Value → Except Failure Value
  | .ok v => .ok v
  | .error e => if f.name = "default" && isMissingVariable e then .ok .null else .error e

/-- The function under a name, if the renderer has functions at all. -/
def function? (r : Renderer) (name : String) : Option Registry :=
  match r.functions with
  | some registry => if Table.has name registry then some registry else none
  | none => none

mutual

/-- The value of an expression. -/
def evaluate (r : Renderer) (run : Runner) (f : Frame) : Expr → Except Failure Value
  | .literal v => .ok v
  | .path p => f.lookup p
  | .filtered e spec =>
    match operand spec (evaluate r run f e) with
    | .ok v => Filter.apply r.filters v spec
    | .error e => .error e
  | .call name arguments =>
    match Table.find? name f.macros with
    | some m =>
      if arguments.length ≠ m.parameters.length then
        .error (.of (.macroArity name m.parameters.length arguments.length))
      else
        match run with
        | none => .error (.of (.macroDepth name r.limit))
        | some run =>
          match evaluateAll r (some run) f arguments with
          | .error e => .error e
          | .ok vs =>
            match run (Table.ofList (m.parameters.zip vs)) (m.scope.getD f.macros) m.body with
            | .ok s => .ok (.str s)
            | .error e => .error e
    | none =>
      match r.function? name with
      | none => .error (.of (.unknownFunction name))
      | some registry =>
        match evaluateAll r run f arguments with
        | .error e => .error e
        | .ok vs => registry.call name vs

/-- The values of expressions in order. -/
def evaluateAll (r : Renderer) (run : Runner) (f : Frame) : List Expr → Except Failure (List Value)
  | [] => .ok []
  | e :: es =>
    match evaluate r run f e with
    | .error e => .error e
    | .ok v =>
      match evaluateAll r run f es with
      | .error e => .error e
      | .ok vs => .ok (v :: vs)

end

/-- The pieces of the text so far or a failure, and the locals. -/
abbrev Outcome := Except Failure (List String) × Table Value

/-- The pieces of the texts of a loop's items in order. -/
def renderItems (child : Value → Except Failure (List String)) (item : String)
    (outer : Table Value) (items : List Value) : Except Failure (List String) := do
  let length := items.length
  let texts ← items.zipIdx.mapM fun (v, index) =>
    child (.object (Table.put "loop" (loopObject index length) (Table.put item v outer)))
  pure texts.flatten

/-- The items that a loop runs over. -/
def loopItems (r : Renderer) (run : Runner) (f : Frame) (source : Expr) (filter : Option FilterSpec) :
    Except Failure (List Value) :=
  match evaluate r run f source with
  | .error e => .error e
  | .ok v =>
    match (match filter with | some spec => Filter.apply r.filters v spec | none => .ok v) with
    | .error e => .error e
    | .ok v =>
      match v.items? with
      | some items => .ok items
      | none => .error (.of (.notIterable v.typeName))

mutual

/-- The pieces of the text of one node. -/
def renderNode (r : Renderer) (run : Runner) (f : Frame) : Node → Outcome
  | .text s => (.ok [s], f.locals)
  | .output e =>
    match evaluate r run f e with
    | .ok v => (v.print.map fun s => [s], f.locals)
    | .error e => (.error e, f.locals)
  | .loop item source filter body =>
    match loopItems r run f source filter with
    | .error e => (.error e, f.locals)
    | .ok items =>
      (renderItems (fun context => (renderNodes r run ⟨context, [], f.macros⟩ body).1) item f.visible
        items, f.locals)
  | .choice c body rest =>
    match f.test c with
    | .error e => (.error e, f.locals)
    | .ok true => renderNodes r run f body
    | .ok false => renderAlternative r run f rest
  | .assign name e =>
    match evaluate r run f e with
    | .ok v => (.ok [], Table.put name v f.locals)
    | .error e => (.error e, f.locals)
  | .block _ body => renderNodes r run f body
  | .inclusion template => (.error (.of (.unresolvedInclude template)), f.locals)
  | .inherit _ => (.ok [], f.locals)
  | .definition _ _ _ => (.ok [], f.locals)
  | .imports _ _ => (.ok [], f.locals)
  | .parent => (.ok [], f.locals)

/-- The pieces of what is left of a choice. -/
def renderAlternative (r : Renderer) (run : Runner) (f : Frame) : Alternative → Outcome
  | .choice c body rest =>
    match f.test c with
    | .error e => (.error e, f.locals)
    | .ok true => renderNodes r run f body
    | .ok false => renderAlternative r run f rest
  | .otherwise body => renderNodes r run f body

/-- The pieces of nodes in order; each sees the locals that the ones before it have left. -/
def renderNodes (r : Renderer) (run : Runner) (f : Frame) : List Node → Outcome
  | [] => (.ok [], f.locals)
  | n :: ns =>
    match renderNode r run f n with
    | (.error e, locals) => (.error e, locals)
    | (.ok s, locals) =>
      match renderNodes r run { f with locals } ns with
      | (.error e, locals) => (.error e, locals)
      | (.ok t, locals) => (.ok (s ++ t), locals)

end

/-- Runs bodies of macros with room for a number of calls inside one another. -/
def runner (r : Renderer) : Nat → Runner
  | 0 => none
  | room + 1 => some fun parameters macros body =>
    (renderNodes r (runner r room) ⟨.object parameters, [], macros⟩ body).1.map String.join

/-- The text of nodes in a frame or a failure, and the locals. -/
def render (r : Renderer) (f : Frame) (nodes : List Node) : Except Failure String × Table Value :=
  let (pieces, locals) := renderNodes r (r.runner r.limit.toNat) f nodes
  (pieces.map String.join, locals)

end Renderer

end Stencil
