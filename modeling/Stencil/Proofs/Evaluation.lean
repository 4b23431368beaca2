/-
# The rules of rendering

Rendering as a set of rules, with no bound on how often or how deep they apply: a
rendering ends if there is a derivation of what it ends with. Every frame has a
depth, which is how many calls of macros it stands inside. A call of a macro is
refused where the depth has reached the limit; where it has not, the body is
rendered one level deeper. Each rule that runs into a failure ends there.

The depths at which bodies of macros are rendered are kept in order.

A renderer does what the rules say, and there is nothing else that they say: so
rendering ends, although macros may call each other in a circle, and the room
that is set aside for calls is never what ends it.

Key definitions: `Evaluation.Evaluates`, `Evaluation.Renders`, `Evaluation.RendersAll`.
Key theorems: `Evaluation.ends`, `Evaluation.RendersAll.eq_render`.
-/
import Mathlib.Data.List.Forall2
import Stencil.Renderer

namespace Stencil.Evaluation

open Renderer

/-- What a filter makes of what was evaluated. -/
def filtered (r : Renderer) (spec : FilterSpec) (result : Except Failure Value) :
    Except Failure Value :=
  match operand spec result with
  | .ok v => Filter.apply r.filters v spec
  | .error e => .error e

/-- The text of what was evaluated. -/
def printed : Except Failure Value → Except Failure (List String)
  | .ok v => v.print.map fun s => [s]
  | .error e => .error e

/-- The items of what was evaluated, through the filter of a loop if it has one. -/
def itemsOf (r : Renderer) (filter : Option FilterSpec) :
    Except Failure Value → Except Failure (List Value)
  | .error e => .error e
  | .ok v =>
    match (match filter with | some spec => Filter.apply r.filters v spec | none => .ok v) with
    | .error e => .error e
    | .ok v =>
      match v.items? with
      | some items => .ok items
      | none => .error (.of (.notIterable v.typeName))

/-- The contexts that the body of a loop is rendered in, one for each item. -/
def contexts (item : String) (outer : Table Value) (items : List Value) : List Value :=
  items.zipIdx.map fun (v, index) =>
    .object (Table.put "loop" (loopObject index items.length) (Table.put item v outer))

/-- The frame that the body of a macro is rendered in. -/
def bodyFrame (f : Frame) (m : Macro) (vs : List Value) : Frame :=
  ⟨.object (Table.ofList (m.parameters.zip vs)), [], m.scope.getD f.macros⟩

section

variable (r : Renderer)

mutual

/-- An expression is evaluated in a frame at some depth. -/
inductive Evaluates : Nat → Frame → Expr → List Nat → Except Failure Value → Prop
  | literal {k f v} : Evaluates k f (.literal v) [] (.ok v)
  | path {k f p} : Evaluates k f (.path p) [] (f.lookup p)
  | filtered {k f e spec ds result} (inner : Evaluates k f e ds result) :
    Evaluates k f (.filtered e spec) ds (filtered r spec result)
  | arity {k f name arguments m} (found : Table.find? name f.macros = some m)
    (differ : arguments.length ≠ m.parameters.length) :
    Evaluates k f (.call name arguments) []
      (.error (.of (.macroArity name m.parameters.length arguments.length)))
  | tooDeep {k : Nat} {f name arguments m} (found : Table.find? name f.macros = some m)
    (same : arguments.length = m.parameters.length) (full : r.limit ≤ k) :
    Evaluates k f (.call name arguments) [] (.error (.of (.macroDepth name r.limit)))
  | argumentFails {k : Nat} {f name arguments m ds e}
    (found : Table.find? name f.macros = some m)
    (same : arguments.length = m.parameters.length) (room : (k : Int) < r.limit)
    (values : EvaluatesAll k f arguments ds (.error e)) :
    Evaluates k f (.call name arguments) ds (.error e)
  | runs {k : Nat} {f name arguments m ds vs ds' pieces locals}
    (found : Table.find? name f.macros = some m)
    (same : arguments.length = m.parameters.length) (room : (k : Int) < r.limit)
    (values : EvaluatesAll k f arguments ds (.ok vs))
    (body : RendersAll (k + 1) (bodyFrame f m vs) m.body ds' pieces locals) :
    Evaluates k f (.call name arguments) (ds ++ (k + 1) :: ds')
      (pieces.map fun texts => .str (String.join texts))
  | unknown {k f name arguments} (free : Table.find? name f.macros = none)
    (unknown : r.function? name = none) :
    Evaluates k f (.call name arguments) [] (.error (.of (.unknownFunction name)))
  | operandFails {k f name arguments registry ds e} (free : Table.find? name f.macros = none)
    (known : r.function? name = some registry)
    (values : EvaluatesAll k f arguments ds (.error e)) :
    Evaluates k f (.call name arguments) ds (.error e)
  | function {k f name arguments registry ds vs} (free : Table.find? name f.macros = none)
    (known : r.function? name = some registry) (values : EvaluatesAll k f arguments ds (.ok vs)) :
    Evaluates k f (.call name arguments) ds (registry.call name vs)

/-- Expressions are evaluated in order. -/
inductive EvaluatesAll : Nat → Frame → List Expr → List Nat → Except Failure (List Value) → Prop
  | nil {k f} : EvaluatesAll k f [] [] (.ok [])
  | cons {k f e es ds v ds' result} (first : Evaluates k f e ds (.ok v))
    (others : EvaluatesAll k f es ds' result) :
    EvaluatesAll k f (e :: es) (ds ++ ds') (result.map (v :: ·))
  | consFails {k f e es ds failure} (first : Evaluates k f e ds (.error failure)) :
    EvaluatesAll k f (e :: es) ds (.error failure)

/-- A node is rendered, which leaves some locals. -/
inductive Renders :
    Nat → Frame → Node → List Nat → Except Failure (List String) → Table Value → Prop
  | text {k f s} : Renders k f (.text s) [] (.ok [s]) f.locals
  | output {k f e ds result} (value : Evaluates k f e ds result) :
    Renders k f (.output e) ds (printed result) f.locals
  | assign {k f name e ds v} (value : Evaluates k f e ds (.ok v)) :
    Renders k f (.assign name e) ds (.ok []) (Table.put name v f.locals)
  | assignFails {k f name e ds failure} (value : Evaluates k f e ds (.error failure)) :
    Renders k f (.assign name e) ds (.error failure) f.locals
  | loop {k f item e filter body ds result items ds' pieces} (source : Evaluates k f e ds result)
    (iterable : itemsOf r filter result = .ok items)
    (inner : RendersItems k f.macros body (contexts item f.visible items) ds' pieces) :
    Renders k f (.loop item e filter body) (ds ++ ds') pieces f.locals
  | loopFails {k f item e filter body ds result failure} (source : Evaluates k f e ds result)
    (fails : itemsOf r filter result = .error failure) :
    Renders k f (.loop item e filter body) ds (.error failure) f.locals
  | choice {k f c body rest ds pieces locals}
    (branch : RendersRest k f (.choice c body rest) ds pieces locals) :
    Renders k f (.choice c body rest) ds pieces locals
  | block {k f name body ds pieces locals} (inner : RendersAll k f body ds pieces locals) :
    Renders k f (.block name body) ds pieces locals
  | inclusion {k f name} :
    Renders k f (.inclusion name) [] (.error (.of (.unresolvedInclude name))) f.locals
  | inherit {k f name} : Renders k f (.inherit name) [] (.ok []) f.locals
  | definition {k f name params body} :
    Renders k f (.definition name params body) [] (.ok []) f.locals
  | imports {k f name names} : Renders k f (.imports name names) [] (.ok []) f.locals
  | parent {k f} : Renders k f .parent [] (.ok []) f.locals

/-- What is left of a choice is rendered. -/
inductive RendersRest :
    Nat → Frame → Alternative → List Nat → Except Failure (List String) → Table Value → Prop
  | fails {k f c body rest failure} (test : f.test c = .error failure) :
    RendersRest k f (.choice c body rest) [] (.error failure) f.locals
  | holds {k f c body rest ds pieces locals} (test : f.test c = .ok true)
    (inner : RendersAll k f body ds pieces locals) :
    RendersRest k f (.choice c body rest) ds pieces locals
  | next {k f c body rest ds pieces locals} (test : f.test c = .ok false)
    (others : RendersRest k f rest ds pieces locals) :
    RendersRest k f (.choice c body rest) ds pieces locals
  | otherwise {k f body ds pieces locals} (inner : RendersAll k f body ds pieces locals) :
    RendersRest k f (.otherwise body) ds pieces locals

/-- Nodes are rendered in order. -/
inductive RendersAll :
    Nat → Frame → List Node → List Nat → Except Failure (List String) → Table Value → Prop
  | nil {k f} : RendersAll k f [] [] (.ok []) f.locals
  | cons {k f n ns ds texts locals ds' pieces locals'}
    (first : Renders k f n ds (.ok texts) locals)
    (others : RendersAll k { f with locals } ns ds' pieces locals') :
    RendersAll k f (n :: ns) (ds ++ ds') (pieces.map (texts ++ ·)) locals'
  | consFails {k f n ns ds failure locals} (first : Renders k f n ds (.error failure) locals) :
    RendersAll k f (n :: ns) ds (.error failure) locals

/-- The body of a loop is rendered in one context after the other. -/
inductive RendersItems :
    Nat → Table Macro → List Node → List Value → List Nat → Except Failure (List String) → Prop
  | nil {k macros body} : RendersItems k macros body [] [] (.ok [])
  | cons {k macros body context more ds texts locals ds' pieces}
    (first : RendersAll k ⟨context, [], macros⟩ body ds (.ok texts) locals)
    (others : RendersItems k macros body more ds' pieces) :
    RendersItems k macros body (context :: more) (ds ++ ds') (pieces.map (texts ++ ·))
  | consFails {k macros body context more ds failure locals}
    (first : RendersAll k ⟨context, [], macros⟩ body ds (.error failure) locals) :
    RendersItems k macros body (context :: more) ds (.error failure)

end

end

/-! ### The renderer in terms of the rules -/

variable {r : Renderer}

theorem loopItems_eq (run : Runner) (f : Frame) (source : Expr) (filter : Option FilterSpec) :
    loopItems r run f source filter = itemsOf r filter (evaluate r run f source) := by
  unfold loopItems itemsOf
  cases evaluate r run f source <;> rfl

theorem renderItems_eq (child : Value → Except Failure (List String)) (item : String)
    (outer : Table Value) (items : List Value) :
    renderItems child item outer items =
      ((contexts item outer items).mapM child).map List.flatten := by
  have same : renderItems child item outer items =
      (contexts item outer items).mapM child >>= fun texts => pure texts.flatten := by
    unfold renderItems contexts
    rw [List.mapM_map]
    rfl
  rw [same]
  cases (contexts item outer items).mapM child <;> rfl

/-- How macros are run at a depth. -/
def runnerAt (r : Renderer) (k : Nat) : Runner :=
  r.runner (r.limit - k).toNat

theorem runnerAt_full {k : Nat} (full : r.limit ≤ k) : runnerAt r k = none := by
  unfold runnerAt
  rw [Int.toNat_of_nonpos (by omega)]
  rfl

theorem runnerAt_room {k : Nat} (room : (k : Int) < r.limit) :
    runnerAt r k = some fun parameters macros body =>
      (renderNodes r (runnerAt r (k + 1)) ⟨.object parameters, [], macros⟩ body).1.map
        String.join := by
  have more : (r.limit - k).toNat = (r.limit - (k + 1 : Nat)).toNat + 1 := by omega
  unfold runnerAt
  rw [more]
  rfl

section

variable {run : Runner} {k : Nat} {f : Frame} {name : String} {arguments : List Expr} {m : Macro}

theorem evaluate_arity (found : Table.find? name f.macros = some m)
    (differ : arguments.length ≠ m.parameters.length) :
    evaluate r run f (.call name arguments) =
      .error (.of (.macroArity name m.parameters.length arguments.length)) := by
  unfold evaluate
  rw [found]
  exact if_pos differ

theorem evaluate_tooDeep (found : Table.find? name f.macros = some m)
    (same : arguments.length = m.parameters.length) (full : r.limit ≤ k) :
    evaluate r (runnerAt r k) f (.call name arguments) =
      .error (.of (.macroDepth name r.limit)) := by
  unfold evaluate
  rw [found, runnerAt_full full]
  exact if_neg (not_not_intro same)

theorem evaluate_runs (found : Table.find? name f.macros = some m)
    (same : arguments.length = m.parameters.length) (room : (k : Int) < r.limit) :
    evaluate r (runnerAt r k) f (.call name arguments) =
      match evaluateAll r (runnerAt r k) f arguments with
      | .error e => .error e
      | .ok vs =>
        (renderNodes r (runnerAt r (k + 1)) (bodyFrame f m vs) m.body).1.map fun texts =>
          .str (String.join texts) := by
  unfold evaluate
  rw [found, runnerAt_room room]
  refine (if_neg (not_not_intro same)).trans ?_
  dsimp only
  cases evaluateAll r _ f arguments with
  | error e => rfl
  | ok vs =>
    unfold bodyFrame
    dsimp only
    cases (renderNodes r (runnerAt r (k + 1)) _ m.body).1 <;> rfl

theorem evaluate_function (free : Table.find? name f.macros = none) :
    evaluate r run f (.call name arguments) =
      match r.function? name with
      | none => .error (.of (.unknownFunction name))
      | some registry =>
        match evaluateAll r run f arguments with
        | .error e => .error e
        | .ok vs => registry.call name vs := by
  unfold evaluate
  split
  · rename_i found
    cases free.symm.trans found
  · rfl

theorem evaluateAll_cons (e : Expr) (es : List Expr) :
    evaluateAll r run f (e :: es) =
      match evaluate r run f e with
      | .error failure => .error failure
      | .ok v => (evaluateAll r run f es).map (v :: ·) := by
  conv =>
    lhs
    unfold evaluateAll
  cases evaluate r run f e with
  | error failure => rfl
  | ok v =>
    dsimp only
    cases evaluateAll r run f es <;> rfl

/-- The values of expressions are those of each of them. -/
theorem forall₂_of_evaluateAll : ∀ {es : List Expr} {vs : List Value},
    evaluateAll r run f es = .ok vs → List.Forall₂ (fun e v => evaluate r run f e = .ok v) es vs
  | [], vs, h => by
    cases (show Except.ok [] = Except.ok vs from h)
    exact .nil
  | e :: es, vs, h => by
    rw [evaluateAll_cons] at h
    cases first : evaluate r run f e with
    | error failure =>
      rw [first] at h
      cases h
    | ok v =>
      cases others : evaluateAll r run f es with
      | error failure =>
        rw [first, others] at h
        cases h
      | ok ws =>
        rw [first, others] at h
        cases (show Except.ok (v :: ws) = Except.ok vs from h)
        exact .cons first (forall₂_of_evaluateAll others)

/-- The pieces of a loop's body in one context after the other. -/
def renderContexts (r : Renderer) (run : Runner) (macros : Table Macro) (body : List Node)
    (cs : List Value) : Except Failure (List String) :=
  (cs.mapM fun context => (renderNodes r run ⟨context, [], macros⟩ body).1).map List.flatten

theorem renderContexts_cons (macros : Table Macro) (body : List Node) (context : Value)
    (cs : List Value) :
    renderContexts r run macros body (context :: cs) =
      match (renderNodes r run ⟨context, [], macros⟩ body).1 with
      | .error failure => .error failure
      | .ok texts => (renderContexts r run macros body cs).map (texts ++ ·) := by
  unfold renderContexts
  rw [List.mapM_cons]
  cases (renderNodes r run ⟨context, [], macros⟩ body).1 with
  | error failure => rfl
  | ok texts =>
    dsimp only
    cases cs.mapM fun context => (renderNodes r run ⟨context, [], macros⟩ body).1 <;> rfl

theorem renderNode_output (e : Expr) :
    renderNode r run f (.output e) = (printed (evaluate r run f e), f.locals) := by
  unfold renderNode
  cases evaluate r run f e <;> rfl

theorem renderNode_assign (e : Expr) :
    renderNode r run f (.assign name e) =
      match evaluate r run f e with
      | .error failure => (.error failure, f.locals)
      | .ok v => (.ok [], Table.put name v f.locals) := by
  unfold renderNode
  cases evaluate r run f e <;> rfl

theorem renderNode_loop (item : String) (e : Expr) (filter : Option FilterSpec)
    (body : List Node) :
    renderNode r run f (.loop item e filter body) =
      match itemsOf r filter (evaluate r run f e) with
      | .error failure => (.error failure, f.locals)
      | .ok items =>
        (renderContexts r run f.macros body (contexts item f.visible items), f.locals) := by
  unfold renderNode
  rw [loopItems_eq]
  cases itemsOf r filter (evaluate r run f e) with
  | error failure => rfl
  | ok items => exact congrArg (·, f.locals) (renderItems_eq _ item f.visible items)

theorem renderNodes_cons (n : Node) (ns : List Node) :
    renderNodes r run f (n :: ns) =
      match renderNode r run f n with
      | (.error failure, locals) => (.error failure, locals)
      | (.ok texts, locals) =>
        ((renderNodes r run { f with locals } ns).1.map (texts ++ ·),
          (renderNodes r run { f with locals } ns).2) := by
  conv =>
    lhs
    unfold renderNodes
  rcases renderNode r run f n with ⟨failure | texts, locals⟩
  · rfl
  · dsimp only
    rcases renderNodes r run { f with locals } ns with ⟨_ | _, _⟩ <;> rfl

end

/-! ### Rendering ends as the renderer says -/

/-- The rules say of nodes what the renderer makes of them. -/
def Ended (r : Renderer) (k : Nat) (f : Frame) (ns : List Node) : Prop :=
  ∃ ds, RendersAll r k f ns ds (renderNodes r (runnerAt r k) f ns).1
    (renderNodes r (runnerAt r k) f ns).2

/-- Where there is room for a call, the bodies of macros end. -/
def BodiesEnd (r : Renderer) (k : Nat) : Prop :=
  (k : Int) < r.limit → ∀ f ns, Ended r (k + 1) f ns

section

variable {k : Nat} {f : Frame}

/-- A call ends if its arguments have values and the body of its macro ends. -/
theorem evaluates_call {name : String} {arguments : List Expr}
    (values : ∃ ds, EvaluatesAll r k f arguments ds (evaluateAll r (runnerAt r k) f arguments))
    (bodies : BodiesEnd r k) :
    ∃ ds, Evaluates r k f (.call name arguments) ds
      (evaluate r (runnerAt r k) f (.call name arguments)) := by
  obtain ⟨ds, values⟩ := values
  cases found : Table.find? name f.macros with
  | none =>
    rw [evaluate_function found]
    cases known : r.function? name with
    | none => exact ⟨[], .unknown found known⟩
    | some registry =>
      cases all : evaluateAll r (runnerAt r k) f arguments with
      | error e => exact ⟨ds, .operandFails found known (all ▸ values)⟩
      | ok vs => exact ⟨ds, .function found known (all ▸ values)⟩
  | some m =>
    by_cases same : arguments.length = m.parameters.length
    · by_cases full : r.limit ≤ k
      · rw [evaluate_tooDeep found same full]
        exact ⟨[], .tooDeep found same full⟩
      · have room : (k : Int) < r.limit := by omega
        rw [evaluate_runs found same room]
        cases all : evaluateAll r (runnerAt r k) f arguments with
        | error e => exact ⟨ds, .argumentFails found same room (all ▸ values)⟩
        | ok vs =>
          obtain ⟨ds', body⟩ := bodies room (bodyFrame f m vs) m.body
          exact ⟨ds ++ (k + 1) :: ds', .runs found same room (all ▸ values) body⟩
    · rw [evaluate_arity found same]
      exact ⟨[], .arity found same⟩

mutual

theorem evaluates_of (bodies : BodiesEnd r k) : ∀ e,
    ∃ ds, Evaluates r k f e ds (evaluate r (runnerAt r k) f e)
  | .literal _ => ⟨[], .literal⟩
  | .path _ => ⟨[], .path⟩
  | .filtered e _ =>
    let ⟨ds, inner⟩ := evaluates_of bodies e
    ⟨ds, .filtered inner⟩
  | .call _ arguments => evaluates_call (evaluatesAll_of bodies arguments) bodies

theorem evaluatesAll_of (bodies : BodiesEnd r k) : ∀ es,
    ∃ ds, EvaluatesAll r k f es ds (evaluateAll r (runnerAt r k) f es)
  | [] => ⟨[], .nil⟩
  | e :: es => by
    obtain ⟨ds, first⟩ := evaluates_of bodies e
    obtain ⟨ds', others⟩ := evaluatesAll_of bodies es
    rw [evaluateAll_cons]
    cases value : evaluate r (runnerAt r k) f e with
    | error failure => exact ⟨ds, .consFails (value ▸ first)⟩
    | ok v => exact ⟨ds ++ ds', .cons (value ▸ first) others⟩

end

/-- A loop ends if its body does in every context. -/
theorem rendersItems_of {macros : Table Macro} {body : List Node}
    (inner : ∀ context, Ended r k ⟨context, [], macros⟩ body) (cs : List Value) :
    ∃ ds, RendersItems r k macros body cs ds
      (renderContexts r (runnerAt r k) macros body cs) := by
  induction cs with
  | nil => exact ⟨[], .nil⟩
  | cons context cs ih =>
    obtain ⟨ds, first⟩ := inner context
    obtain ⟨ds', others⟩ := ih
    rw [renderContexts_cons]
    cases texts : (renderNodes r (runnerAt r k) ⟨context, [], macros⟩ body).1 with
    | error failure => exact ⟨ds, .consFails (texts ▸ first)⟩
    | ok texts' => exact ⟨ds ++ ds', .cons (texts ▸ first) others⟩

/-- A choice ends if what it may come to does. -/
theorem rendersRest_of {c : Condition} {body : List Node} {rest : Alternative}
    (inner : Ended r k f body)
    (others : ∃ ds, RendersRest r k f rest ds (renderAlternative r (runnerAt r k) f rest).1
      (renderAlternative r (runnerAt r k) f rest).2) :
    ∃ ds, RendersRest r k f (.choice c body rest) ds
      (renderAlternative r (runnerAt r k) f (.choice c body rest)).1
      (renderAlternative r (runnerAt r k) f (.choice c body rest)).2 := by
  unfold renderAlternative
  cases test : f.test c with
  | error failure => exact ⟨[], .fails test⟩
  | ok holds =>
    cases holds with
    | true =>
      obtain ⟨ds, inner⟩ := inner
      exact ⟨ds, .holds test inner⟩
    | false =>
      obtain ⟨ds, others⟩ := others
      exact ⟨ds, .next test others⟩

end

mutual

theorem renders_of {k : Nat} {f : Frame} (bodies : BodiesEnd r k) : ∀ n,
    ∃ ds, Renders r k f n ds (renderNode r (runnerAt r k) f n).1
      (renderNode r (runnerAt r k) f n).2
  | .text _ => ⟨[], .text⟩
  | .output e => by
    obtain ⟨ds, value⟩ := evaluates_of (f := f) bodies e
    rw [renderNode_output]
    exact ⟨ds, .output value⟩
  | .loop item e filter body => by
    obtain ⟨ds, source⟩ := evaluates_of (f := f) bodies e
    rw [renderNode_loop]
    cases items : itemsOf r filter (evaluate r (runnerAt r k) f e) with
    | error failure => exact ⟨ds, .loopFails source items⟩
    | ok items' =>
      have turns : ∀ context, Ended r k ⟨context, [], f.macros⟩ body :=
        fun _ => rendersAll_of bodies body
      obtain ⟨ds', inner⟩ := rendersItems_of turns (contexts item f.visible items')
      exact ⟨ds ++ ds', .loop source items inner⟩
  | .choice c body rest => by
    obtain ⟨ds, branch⟩ := rendersRest_of (c := c) (rendersAll_of (f := f) bodies body)
      (rendersAlternative_of bodies rest)
    exact ⟨ds, .choice branch⟩
  | .assign name e => by
    obtain ⟨ds, value⟩ := evaluates_of (f := f) bodies e
    rw [renderNode_assign]
    cases result : evaluate r (runnerAt r k) f e with
    | error failure => exact ⟨ds, .assignFails (result ▸ value)⟩
    | ok v => exact ⟨ds, .assign (result ▸ value)⟩
  | .block _ body => by
    obtain ⟨ds, inner⟩ := rendersAll_of (f := f) bodies body
    exact ⟨ds, .block inner⟩
  | .inclusion _ => ⟨[], .inclusion⟩
  | .inherit _ => ⟨[], .inherit⟩
  | .definition _ _ _ => ⟨[], .definition⟩
  | .imports _ _ => ⟨[], .imports⟩
  | .parent => ⟨[], .parent⟩

theorem rendersAlternative_of {k : Nat} {f : Frame} (bodies : BodiesEnd r k) : ∀ a,
    ∃ ds, RendersRest r k f a ds (renderAlternative r (runnerAt r k) f a).1
      (renderAlternative r (runnerAt r k) f a).2
  | .choice _ body rest =>
    rendersRest_of (rendersAll_of bodies body) (rendersAlternative_of bodies rest)
  | .otherwise body => by
    obtain ⟨ds, inner⟩ := rendersAll_of (f := f) bodies body
    exact ⟨ds, .otherwise inner⟩

theorem rendersAll_of {k : Nat} {f : Frame} (bodies : BodiesEnd r k) : ∀ ns, Ended r k f ns
  | [] => ⟨[], .nil⟩
  | n :: ns => by
    obtain ⟨ds, first⟩ := renders_of (f := f) bodies n
    unfold Ended
    rw [renderNodes_cons]
    generalize renderNode r (runnerAt r k) f n = outcome at first
    rcases outcome with ⟨failure | texts, locals⟩
    · exact ⟨ds, .consFails first⟩
    · obtain ⟨ds', others⟩ := rendersAll_of (f := { f with locals }) bodies ns
      exact ⟨ds ++ ds', .cons first others⟩

end

/-- **Rendering ends**, as the renderer says, at every depth. The induction is on how many calls
the limit leaves, and inside it on the nodes. -/
theorem ends (r : Renderer) (k : Nat) (f : Frame) (ns : List Node) : Ended r k f ns := by
  generalize less : (r.limit - k).toNat = room
  induction room generalizing k f ns with
  | zero => exact rendersAll_of (fun room => by omega) ns
  | succ room ih => exact rendersAll_of (fun _ f ns => ih (k + 1) f ns (by omega)) ns

/-! ### There is nothing else that the rules say -/

mutual

theorem Evaluates.eq {k : Nat} {f : Frame} {e : Expr} {ds : List Nat}
    {result : Except Failure Value} (h : Evaluates r k f e ds result) :
    evaluate r (runnerAt r k) f e = result := by
  match h with
  | .literal => rfl
  | .path => rfl
  | .filtered inner =>
    unfold evaluate
    rw [inner.eq]
    rfl
  | .arity found differ => exact evaluate_arity found differ
  | .tooDeep found same full => exact evaluate_tooDeep found same full
  | .argumentFails found same room values => rw [evaluate_runs found same room, values.eq]
  | .runs found same room values body =>
    rw [evaluate_runs found same room, values.eq]
    dsimp only
    rw [body.eq]
  | .unknown free unknown => rw [evaluate_function free, unknown]
  | .operandFails free known values =>
    rw [evaluate_function free, known, values.eq]
  | .function free known values =>
    rw [evaluate_function free, known, values.eq]

theorem EvaluatesAll.eq {k : Nat} {f : Frame} {es : List Expr} {ds : List Nat}
    {result : Except Failure (List Value)} (h : EvaluatesAll r k f es ds result) :
    evaluateAll r (runnerAt r k) f es = result := by
  match h with
  | .nil => rfl
  | .cons first others =>
    rw [evaluateAll_cons, first.eq, others.eq]
  | .consFails first => rw [evaluateAll_cons, first.eq]

theorem Renders.eq {k : Nat} {f : Frame} {n : Node} {ds : List Nat}
    {pieces : Except Failure (List String)} {locals : Table Value}
    (h : Renders r k f n ds pieces locals) :
    renderNode r (runnerAt r k) f n = (pieces, locals) := by
  match h with
  | .text => rfl
  | .output value => rw [renderNode_output, value.eq]
  | .assign value => rw [renderNode_assign, value.eq]
  | .assignFails value => rw [renderNode_assign, value.eq]
  | .loop source iterable inner =>
    rw [renderNode_loop, source.eq, iterable]
    exact congrArg (·, f.locals) inner.eq
  | .loopFails source fails => rw [renderNode_loop, source.eq, fails]
  | .choice branch => exact branch.eq
  | .block inner => exact inner.eq
  | .inclusion => rfl
  | .inherit => rfl
  | .definition => rfl
  | .imports => rfl
  | .parent => rfl

theorem RendersRest.eq {k : Nat} {f : Frame} {a : Alternative} {ds : List Nat}
    {pieces : Except Failure (List String)} {locals : Table Value}
    (h : RendersRest r k f a ds pieces locals) :
    renderAlternative r (runnerAt r k) f a = (pieces, locals) := by
  match h with
  | .fails test =>
    unfold renderAlternative
    rw [test]
  | .holds test inner =>
    unfold renderAlternative
    rw [test]
    exact inner.eq
  | .next test others =>
    unfold renderAlternative
    rw [test]
    exact others.eq
  | .otherwise inner => exact inner.eq

theorem RendersAll.eq {k : Nat} {f : Frame} {ns : List Node} {ds : List Nat}
    {pieces : Except Failure (List String)} {locals : Table Value}
    (h : RendersAll r k f ns ds pieces locals) :
    renderNodes r (runnerAt r k) f ns = (pieces, locals) := by
  match h with
  | .nil => rfl
  | .cons first others =>
    rw [renderNodes_cons, first.eq]
    dsimp only
    rw [others.eq]
  | .consFails first => rw [renderNodes_cons, first.eq]

theorem RendersItems.eq {k : Nat} {macros : Table Macro} {body : List Node} {cs : List Value}
    {ds : List Nat} {pieces : Except Failure (List String)}
    (h : RendersItems r k macros body cs ds pieces) :
    renderContexts r (runnerAt r k) macros body cs = pieces := by
  match h with
  | .nil => rfl
  | .cons first others => rw [renderContexts_cons, first.eq, others.eq]
  | .consFails first => rw [renderContexts_cons, first.eq]

end

/-- The outermost frame has no depth. -/
theorem render_eq (r : Renderer) (f : Frame) (ns : List Node) :
    r.render f ns =
      ((renderNodes r (runnerAt r 0) f ns).1.map String.join,
        (renderNodes r (runnerAt r 0) f ns).2) := by
  unfold render runnerAt
  rw [Int.natCast_zero, Int.sub_zero]

/-- **What the rules say is what the renderer gives**, text or failure, and the locals. -/
theorem RendersAll.eq_render {f : Frame} {ns : List Node} {ds : List Nat}
    {pieces : Except Failure (List String)} {locals : Table Value}
    (h : RendersAll r 0 f ns ds pieces locals) :
    r.render f ns = (pieces.map String.join, locals) := by
  rw [render_eq, h.eq]

end Stencil.Evaluation
