/-
# Where failures of rendering come from

Rendering asks for nothing outside of its frame. So whatever goes wrong in it is an
error of evaluation or a fault, unless a function or a filter raises it: no
source is read any more, no template is loaded, and no limit on the templates in
progress is reached. When the error is over an operation that is not supported,
then there is a node with it, among those that are rendered or in the body of a
macro that can be called: an include, or a condition with an operator that is not
known.

The nodes and the macros that are come upon are followed through the rules, as
nodes of a kind. The kind is left open, so one induction tells both what the
nodes have to do with a failure and what is so of all failures.

Key definitions: `Fails`, `Frame.Misses`, `Renderer.Raises`, `Renderer.Mishap`,
`Renderer.Origin`.
Key theorems: `Frame.misses_of_lookup`, `Evaluation.RendersAll.mishap`,
`Renderer.mishap_of_render`, `Renderer.origin_of_render`.
-/
import Stencil.Proofs.Closed
import Stencil.Proofs.Evaluation

namespace Stencil

/-- A result that is `P` where it is a failure. -/
def Fails {α : Type} (P : Failure → Prop) (result : Except Failure α) : Prop :=
  ∀ failure, result = .error failure → P failure

namespace Fails

variable {α β : Type} {P Q : Failure → Prop} {result : Except Failure α}

theorem ok {a : α} : Fails P (Except.ok a) := fun _ h => nomatch h

theorem error {failure : Failure} (h : P failure) :
    Fails P (Except.error failure : Except Failure α) := by
  rintro _ ⟨⟩
  exact h

theorem mono (h : Fails P result) (sub : ∀ f, P f → Q f) : Fails Q result :=
  fun failure failed => sub failure (h failure failed)

theorem map (h : Fails P result) (g : α → β) : Fails P (result.map g) := by
  cases result with
  | ok _ => exact ok
  | error failure => exact error (h failure rfl)

theorem bind (h : Fails P result) {g : α → Except Failure β} (rest : ∀ a, Fails P (g a)) :
    Fails P (result >>= g) := by
  cases result with
  | ok a => exact rest a
  | error failure => exact error (h failure rfl)

theorem ite {c : Prop} [Decidable c] {other : Except Failure α} (yes : Fails P result)
    (no : Fails P other) : Fails P (if c then result else other) := by
  split
  · exact yes
  · exact no

end Fails

namespace Frame

/-- How a path can fail to lead to a value. -/
inductive Misses (path : String) : Failure → Prop
  | missing : Misses path (.of (.variableNotFound path))
  | noContext : Misses path (.of (.noContext path))
  | noParts (segment typeName : String) : Misses path (.of (.noParts path segment typeName))
  | badIndex : Misses path (.fault .badIndex)

variable {path : String} {failure : Failure}

theorem misses_of_step {v : Value} {segment : String} (h : step path v segment = .error failure) :
    Misses path failure := by
  unfold step at h
  split at h
  · split at h <;> cases h
    exact .missing
  · split at h
    · cases h
      exact .noParts segment _
    · dsimp only at h
      split at h
      · cases h
        exact .missing
      · split at h
        · cases h
          exact .badIndex
        · split at h <;> cases h
          exact .missing

theorem misses_of_walk {v : Value} {segments : List String}
    (h : walk path v segments = .error failure) : Misses path failure := by
  induction segments generalizing v with
  | nil => cases h
  | cons segment segments ih =>
    unfold walk at h
    split at h
    · exact ih h
    · rename_i failed
      cases h
      exact misses_of_step failed

theorem misses_of_binding {f : Frame} {name : String} (h : f.binding path name = .error failure) :
    Misses path failure := by
  unfold binding at h
  split at h
  · split at h <;> cases h
    exact .missing
  · split at h <;> cases h
    exact .noContext

/-- **A path that leads to no value misses a variable or a part.** -/
theorem misses_of_lookup {f : Frame} (h : f.lookup path = .error failure) :
    Misses path failure := by
  unfold lookup at h
  split at h
  · exact misses_of_binding h
  · split at h
    · exact misses_of_walk h
    · rename_i failed
      cases h
      exact misses_of_binding failed

/-- A test fails for want of its operand, or because its operator is not known. -/
theorem fails_of_test {f : Frame} {c : Condition} (h : f.test c = .error failure) :
    Misses c.path failure ∨ ∃ op literal, c.test = some (op, literal) ∧
      Comparison.ofSymbol? op.symbol = none ∧ failure = .of (.unsupportedOperator op.symbol) := by
  unfold test at h
  split at h
  · rename_i looked
    cases h
    exact .inl (misses_of_lookup looked)
  · split at h
    · cases h
    · rename_i op literal compares
      unfold Value.compare at h
      split at h
      · cases h
      · rename_i unknown
        cases h
        exact .inr ⟨op, literal, compares, unknown, rfl⟩

end Frame

/-- A call fails before its function is run, or as the function does. -/
theorem Registry.fails_of_call {registry : Registry} {name : String} {arguments : List Value}
    {failure : Failure} (h : registry.call name arguments = .error failure) :
    (∃ c : Cause, failure = .of c ∧ c.category = .calling ∧ c.code ≠ .unsupportedOp) ∨
      ∃ g, Table.find? name registry = some g ∧ g.run arguments = .error failure := by
  unfold call at h
  split at h
  · cases h
    exact .inl ⟨_, rfl, rfl, nofun⟩
  · rename_i g found
    split at h
    · cases h
      exact .inl ⟨_, rfl, rfl, nofun⟩
    · split at h
      · cases h
        exact .inl ⟨_, rfl, rfl, nofun⟩
      · exact .inr ⟨g, found, h⟩

namespace Cause

/-- A cause that has nothing to do with a source, with a loader, or with the limit on templates in
progress. -/
def isOrdinary : Cause → Bool
  | .templateNesting _ => false
  | c => !([.lexical, .grammatical, .missing, .loading] : List Category).contains c.category

theorem isOrdinary_of_calling {c : Cause} (h : c.category = .calling) : c.isOrdinary = true := by
  unfold isOrdinary
  split
  · cases h
  · rw [h]
    rfl

end Cause

namespace Renderer

/-- One of the functions or filters fails so. -/
inductive Raises (r : Renderer) (failure : Failure) : Prop
  | function {registry : Registry} {name : String} {g : Function} {arguments : List Value}
    (registered : r.functions = some registry) (found : Table.find? name registry = some g)
    (fails : g.run arguments = .error failure)
  | filter {name : String} {g : Filter} {v : Value} {argument : Option String}
    (found : Table.find? name r.filters = some g) (fails : g v argument = .error failure)

/-- How rendering can fail where it comes upon nodes of a kind only. -/
inductive Mishap (r : Renderer) (P : Node → Prop) : Failure → Prop
  | evaluation {c : Cause} (runtime : c.category.within .evaluation = true)
    (ordinary : c.isOrdinary = true) (supported : c.code ≠ .unsupportedOp) : Mishap r P (.of c)
  | operator {n : Node} {c : Condition} {op : Operator} {literal : Value} (there : P n)
    (asked : c ∈ n.conditions) (compares : c.test = some (op, literal))
    (unknown : Comparison.ofSymbol? op.symbol = none) :
    Mishap r P (.of (.unsupportedOperator op.symbol))
  | inclusion {name : String} (there : P (.inclusion name)) :
    Mishap r P (.of (.unresolvedInclude name))
  | fault (f : Fault) : Mishap r P (.fault f)
  | raised {failure : Failure} (raises : r.Raises failure) : Mishap r P failure

/-- Where a failure of rendering comes from. -/
inductive Origin (r : Renderer) : Failure → Prop
  | evaluation {c : Cause} (runtime : c.category.within .evaluation = true)
    (ordinary : c.isOrdinary = true) : Origin r (.of c)
  | fault (f : Fault) : Origin r (.fault f)
  | raised {failure : Failure} (raises : r.Raises failure) : Origin r failure

/-- Macros with nodes of a kind only in their bodies, as are those of all macros that they see. -/
abbrev Callable (P : Node → Prop) (macros : Table Macro) : Prop :=
  ∀ q ∈ macros, q.2.Throughout (Everyone P)

theorem raises_of_apply {r : Renderer} {v : Value} {spec : FilterSpec} {failure : Failure}
    (h : Filter.apply r.filters v spec = .error failure) : r.Raises failure := by
  unfold Filter.apply at h
  split at h
  · rename_i found
    exact .filter found h
  · cases h

theorem functions_of_function? {r : Renderer} {name : String} {registry : Registry}
    (h : r.function? name = some registry) : r.functions = some registry := by
  unfold function? at h
  split at h
  · rename_i found
    split at h
    · cases h
      exact found
    · cases h
  · cases h

/-- A filter that stands in for missing variables does not change other failures. -/
theorem error_of_operand {spec : FilterSpec} {result : Except Failure Value} {failure : Failure}
    (h : operand spec result = .error failure) : result = .error failure := by
  unfold operand at h
  split at h
  · cases h
  · split at h
    · cases h
    · exact h

/-- What a macro sees can be called where the macro can. -/
theorem Callable.scope {P : Node → Prop} {macros : Table Macro} (callable : Callable P macros)
    {m : Macro} (known : m.Throughout (Everyone P)) : Callable P (m.scope.getD macros) := by
  cases own : m.scope with
  | none => exact callable
  | some _ => exact known.scope_of own

theorem Mishap.origin {r : Renderer} {P : Node → Prop} {failure : Failure}
    (h : r.Mishap P failure) : r.Origin failure := by
  cases h with
  | evaluation runtime ordinary _ => exact .evaluation runtime ordinary
  | operator _ _ _ _ => exact .evaluation rfl rfl
  | inclusion _ => exact .evaluation rfl rfl
  | fault f => exact .fault f
  | raised raises => exact .raised raises

end Renderer

namespace Evaluation

open Renderer

variable {r : Renderer} {P : Node → Prop} {f : Frame}

/-! ### Values -/

theorem mishap_of_misses {path : String} {failure : Failure} (h : Frame.Misses path failure) :
    r.Mishap P failure := by
  cases h with
  | missing => exact .evaluation rfl rfl nofun
  | noContext => exact .evaluation rfl rfl nofun
  | noParts _ _ => exact .evaluation rfl rfl nofun
  | badIndex => exact .fault _

theorem test_fails {c : Condition} (asked : ∃ n, P n ∧ c ∈ n.conditions) :
    Fails (r.Mishap P) (f.test c) := by
  intro failure failed
  obtain ⟨n, there, asked⟩ := asked
  rcases Frame.fails_of_test failed with misses | ⟨op, literal, compares, unknown, rfl⟩
  · exact mishap_of_misses misses
  · exact .operator there asked compares unknown

theorem call_fails {registry : Registry} {name : String} (known : r.function? name = some registry)
    (vs : List Value) : Fails (r.Mishap P) (registry.call name vs) := by
  intro failure failed
  rcases Registry.fails_of_call failed with ⟨c, rfl, category, other⟩ | ⟨g, found, fails⟩
  · exact .evaluation (by rw [category]; rfl) (Cause.isOrdinary_of_calling category) other
  · exact .raised (.function (functions_of_function? known) found fails)

/-- A filter fails by itself, or for want of its operand. -/
theorem filtered_fails {spec : FilterSpec} {result : Except Failure Value}
    (h : Fails (r.Mishap P) result) : Fails (r.Mishap P) (filtered r spec result) := by
  intro failure failed
  unfold filtered at failed
  split at failed
  · exact .raised (raises_of_apply failed)
  · rename_i unready
    cases failed
    exact h _ (error_of_operand unready)

theorem printed_fails {result : Except Failure Value} (h : Fails (r.Mishap P) result) :
    Fails (r.Mishap P) (printed result) := by
  cases result with
  | error failure => exact .error (h failure rfl)
  | ok v =>
    refine Fails.map ?_ _
    unfold Value.print Value.unlessLong
    exact .ite (.error (.fault _)) .ok

theorem itemsOf_fails {filter : Option FilterSpec} {result : Except Failure Value}
    (h : Fails (r.Mishap P) result) : Fails (r.Mishap P) (itemsOf r filter result) := by
  intro failure failed
  unfold itemsOf at failed
  split at failed
  · exact h _ (congrArg Except.error (Except.error.inj failed))
  · split at failed
    · rename_i unfiltered
      cases failed
      split at unfiltered
      · exact .raised (raises_of_apply unfiltered)
      · cases unfiltered
    · split at failed <;> cases failed
      exact .evaluation rfl rfl nofun

/-! ### Nodes -/

-- On the derivation; bodies of macros are of the kind because the frame says so of what it sees.
mutual

theorem Evaluates.mishap {k : Nat} {f : Frame} {e : Expr} {ds : List Nat}
    {result : Except Failure Value} (h : Evaluates r k f e ds result)
    (macros : Callable P f.macros) : Fails (r.Mishap P) result := by
  match h with
  | .literal => exact .ok
  | .path => exact fun _ h => mishap_of_misses (Frame.misses_of_lookup h)
  | .filtered inner => exact filtered_fails (inner.mishap macros)
  | .arity _ _ => exact .error (.evaluation rfl rfl nofun)
  | .tooDeep _ _ _ => exact .error (.evaluation rfl rfl nofun)
  | .argumentFails _ _ _ values => exact .error (values.mishap macros _ rfl)
  | .runs found _ _ _ body =>
    have known := macros _ (Table.mem_of_find? found)
    exact (body.mishap (macros.scope known) known.body_of).map _
  | .unknown _ _ => exact .error (.evaluation rfl rfl nofun)
  | .operandFails _ _ values => exact .error (values.mishap macros _ rfl)
  | .function _ known _ => exact call_fails known _

theorem EvaluatesAll.mishap {k : Nat} {f : Frame} {es : List Expr} {ds : List Nat}
    {result : Except Failure (List Value)} (h : EvaluatesAll r k f es ds result)
    (macros : Callable P f.macros) : Fails (r.Mishap P) result := by
  match h with
  | .nil => exact .ok
  | .cons _ others => exact (others.mishap macros).map _
  | .consFails first => exact .error (first.mishap macros _ rfl)

theorem Renders.mishap {k : Nat} {f : Frame} {n : Node} {ds : List Nat}
    {pieces : Except Failure (List String)} {locals : Table Value}
    (h : Renders r k f n ds pieces locals) (macros : Callable P f.macros)
    (nodes : ∀ m ∈ n.walk, P m) : Fails (r.Mishap P) pieces := by
  match h with
  | .text => exact .ok
  | .output value => exact printed_fails (value.mishap macros)
  | .assign _ => exact .ok
  | .assignFails value => exact .error (value.mishap macros _ rfl)
  | .loop _ _ inner => exact inner.mishap macros fun m hm => nodes m (List.mem_cons_of_mem _ hm)
  | .loopFails source fails => exact .error (itemsOf_fails (source.mishap macros) _ fails)
  | .choice branch =>
    have here := nodes _ (mem_walk_self _)
    exact branch.mishap macros (fun c asked => ⟨_, here, asked⟩)
      fun m hm => nodes m (List.mem_cons_of_mem _ hm)
  | .block inner => exact inner.mishap macros fun m hm => nodes m (List.mem_cons_of_mem _ hm)
  | .inclusion => exact .error (.inclusion (nodes _ (mem_walk_self _)))
  | .inherit => exact .ok
  | .definition => exact .ok
  | .imports => exact .ok
  | .parent => exact .ok

theorem RendersRest.mishap {k : Nat} {f : Frame} {a : Alternative} {ds : List Nat}
    {pieces : Except Failure (List String)} {locals : Table Value}
    (h : RendersRest r k f a ds pieces locals) (macros : Callable P f.macros)
    (asked : ∀ c ∈ a.conditions, ∃ n, P n ∧ c ∈ n.conditions) (nodes : ∀ m ∈ a.walk, P m) :
    Fails (r.Mishap P) pieces := by
  match h with
  | .fails test => exact .error (test_fails (asked _ List.mem_cons_self) _ test)
  | .holds _ inner => exact inner.mishap macros fun m hm => nodes m (List.mem_append_left _ hm)
  | .next _ others =>
    exact others.mishap macros (fun c hc => asked c (List.mem_cons_of_mem _ hc))
      fun m hm => nodes m (List.mem_append_right _ hm)
  | .otherwise inner => exact inner.mishap macros nodes

/-- **Rendering fails over the nodes that it comes upon**, in evaluation, or because a function or a
filter does. -/
theorem RendersAll.mishap {k : Nat} {f : Frame} {ns : List Node} {ds : List Nat}
    {pieces : Except Failure (List String)} {locals : Table Value}
    (h : RendersAll r k f ns ds pieces locals) (macros : Callable P f.macros)
    (nodes : Everyone P ns) : Fails (r.Mishap P) pieces := by
  match h with
  | .nil => exact .ok
  | .cons _ others =>
    exact (others.mishap macros fun m hm => nodes m (List.mem_append_right _ hm)).map _
  | .consFails first =>
    exact .error (first.mishap macros (fun m hm => nodes m (List.mem_append_left _ hm)) _ rfl)

theorem RendersItems.mishap {k : Nat} {macros : Table Macro} {body : List Node} {cs : List Value}
    {ds : List Nat} {pieces : Except Failure (List String)}
    (h : RendersItems r k macros body cs ds pieces) (callable : Callable P macros)
    (nodes : Everyone P body) : Fails (r.Mishap P) pieces := by
  match h with
  | .nil => exact .ok
  | .cons _ others => exact (others.mishap callable nodes).map _
  | .consFails first => exact .error (first.mishap callable nodes _ rfl)

end

end Evaluation

namespace Renderer

variable {r : Renderer} {f : Frame} {ns : List Node} {failure : Failure}

theorem mishap_of_render {P : Node → Prop} (macros : Callable P f.macros) (nodes : Everyone P ns)
    (h : (r.render f ns).1 = .error failure) : r.Mishap P failure := by
  obtain ⟨ds, ended⟩ := Evaluation.ends r 0 f ns
  rw [ended.eq_render] at h
  exact (ended.mishap macros nodes).map String.join _ h

/-- Whatever the nodes are, their text fails so only. -/
theorem origin_of_render (h : (r.render f ns).1 = .error failure) : r.Origin failure := by
  have anything : ∀ ns, Everyone (fun _ => True) ns := fun _ _ _ => trivial
  exact (mishap_of_render (fun q _ => .of_forall anything q.2) (anything ns) h).origin

end Renderer

end Stencil
