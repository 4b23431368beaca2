/-
# Assignments stay in their scope

The locals of a frame are written by assignments alone, and only by those that are
rendered in that frame: at the top level of the nodes, in blocks and in the
branches of choices. A loop runs its body in frames of its own, and so does the
call of a macro. So the tree of the nodes tells which names may be bound when they
are rendered; whether they are rendered to the end or fail on the way, every other
name has the value it had, and no name is lost.

Key definitions: `Node.assigned`, `assignedAll`.
Key theorems: `Renderer.renderNodes_keeps`, `Renderer.locals_of_assigns_nothing`,
`Renderer.assignments_stay`.
-/
import Stencil.Proofs.Evaluation

namespace Stencil

mutual

/-- The names that a node assigns in the frame in which it is rendered. -/
def Node.assigned : Node → List String
  | .assign name _ => [name]
  | .choice _ body rest => assignedAll body ++ rest.assigned
  | .block _ body => assignedAll body
  | _ => []

/-- The names that what is left of a choice assigns, in whatever branch. -/
def Alternative.assigned : Alternative → List String
  | .choice _ body rest => assignedAll body ++ rest.assigned
  | .otherwise body => assignedAll body

/-- The names that nodes assign. -/
def assignedAll : List Node → List String
  | [] => []
  | n :: ns => n.assigned ++ assignedAll ns

end

namespace Table

variable {α : Type}

/-- A name that is bound comes in behind the others, unless it is among them. -/
theorem names_prefix_put (name : String) (a : α) : ∀ t : Table α, names t <+: names (put name a t)
  | [] => List.nil_prefix
  | (n, b) :: t => by
    by_cases same : n = name
    · rw [put, if_pos same]
      exact List.prefix_refl _
    · rw [put, if_neg same]
      exact List.cons_prefix_cons.mpr ⟨rfl, names_prefix_put name a t⟩

end Table

namespace Renderer

variable {r : Renderer} {run : Runner} {P : Table Value → Prop}

/-- That binding some names keeps something true of the locals. -/
def Keeps (P : Table Value → Prop) (names : List String) : Prop :=
  ∀ name ∈ names, ∀ v t, P t → P (Table.put name v t)

theorem Keeps.mono {names more : List String} (h : Keeps P more) (fewer : names ⊆ more) :
    Keeps P names := fun name member => h name (fewer member)

mutual

theorem renderNode_keeps : ∀ (n : Node) {f : Frame}, Keeps P n.assigned → P f.locals →
    P (renderNode r run f n).2
  | .text _, _, _, holds => holds
  | .output e, _, _, holds => by
    rw [Evaluation.renderNode_output]
    exact holds
  | .loop item source filter body, _, _, holds => by
    unfold renderNode
    split <;> exact holds
  | .choice c body rest, f, binds, holds => by
    have inner := renderNodes_keeps body (binds.mono (List.subset_append_left _ _)) holds
    have others := renderAlternative_keeps rest (binds.mono (List.subset_append_right _ _)) holds
    unfold renderNode
    cases f.test c with
    | error e => exact holds
    | ok b => cases b <;> assumption
  | .assign name e, f, binds, holds => by
    unfold renderNode
    cases evaluate r run f e with
    | error e => exact holds
    | ok v => exact binds name (List.mem_singleton.mpr rfl) v f.locals holds
  | .block _ body, _, binds, holds => renderNodes_keeps body binds holds
  | .inclusion _, _, _, holds => holds
  | .inherit _, _, _, holds => holds
  | .definition _ _ _, _, _, holds => holds
  | .imports _ _, _, _, holds => holds
  | .parent, _, _, holds => holds

theorem renderAlternative_keeps : ∀ (a : Alternative) {f : Frame}, Keeps P a.assigned →
    P f.locals → P (renderAlternative r run f a).2
  | .choice c body rest, f, binds, holds => by
    have inner := renderNodes_keeps body (binds.mono (List.subset_append_left _ _)) holds
    have others := renderAlternative_keeps rest (binds.mono (List.subset_append_right _ _)) holds
    unfold renderAlternative
    cases f.test c with
    | error e => exact holds
    | ok b => cases b <;> assumption
  | .otherwise body, _, binds, holds => renderNodes_keeps body binds holds

/-- **What the assignments among some nodes keep true of the locals is true of them afterwards**,
also when the nodes fail on the way. -/
theorem renderNodes_keeps : ∀ (ns : List Node) {f : Frame}, Keeps P (assignedAll ns) →
    P f.locals → P (renderNodes r run f ns).2
  | [], _, _, holds => holds
  | n :: ns, f, binds, holds => by
    have first : P (renderNode r run f n).2 :=
      renderNode_keeps n (binds.mono (List.subset_append_left _ _)) holds
    rw [Evaluation.renderNodes_cons]
    generalize renderNode r run f n = made at first ⊢
    rcases made with ⟨_ | _, locals⟩
    · exact first
    · exact renderNodes_keeps ns (f := { f with locals })
        (binds.mono (List.subset_append_right _ _)) first

end

/-- Names stay where they are, and new ones come in behind them. -/
theorem names_prefix_renderNodes (f : Frame) (ns : List Node) :
    Table.names f.locals <+: Table.names (renderNodes r run f ns).2 :=
  renderNodes_keeps (P := fun t => Table.names f.locals <+: Table.names t) ns
    (fun name _ v t before => before.trans (Table.names_prefix_put name v t)) (List.prefix_refl _)

/-- A name that nodes do not assign has the value it had. -/
theorem find?_renderNodes (f : Frame) {ns : List Node} {name : String}
    (other : name ∉ assignedAll ns) :
    Table.find? name (renderNodes r run f ns).2 = Table.find? name f.locals := by
  refine renderNodes_keeps (P := fun t => Table.find? name t = Table.find? name f.locals) ns ?_ rfl
  intro bound member v t before
  have differ : name ≠ bound := fun same => other (same ▸ member)
  rw [Table.find?_put_ne differ, before]

/-- Nodes that assign nothing leave the locals as they are. -/
theorem locals_of_assigns_nothing (f : Frame) {ns : List Node} (none : assignedAll ns = []) :
    (renderNodes r run f ns).2 = f.locals := by
  refine renderNodes_keeps (P := fun t => t = f.locals) ns ?_ rfl
  rw [none]
  exact List.forall_mem_nil _

/-- **Assignments stay in their scope.** When nodes are rendered, whether to the end or only up to a
failure, no name of the locals is lost, each stands where it stood, and a name that is not assigned
in the scope of the nodes has the value it had, or none as before. A loop, and output with whatever
calls in it, leave the locals as they are. -/
theorem assignments_stay (r : Renderer) (f : Frame) (ns : List Node) :
    Table.names f.locals <+: Table.names (r.render f ns).2 ∧
      (∀ name, name ∉ assignedAll ns →
        Table.find? name (r.render f ns).2 = Table.find? name f.locals) ∧
      (∀ item source filter body,
        (r.render f [.loop item source filter body]).2 = f.locals) ∧
      ∀ e, (r.render f [.output e]).2 = f.locals := by
  have nothing (n : Node) (none : n.assigned = []) : (r.render f [n]).2 = f.locals :=
    locals_of_assigns_nothing f (show assignedAll [n] = [] by rw [assignedAll, none]; rfl)
  exact ⟨names_prefix_renderNodes f ns, fun _ => find?_renderNodes f,
    fun _ _ _ _ => nothing _ rfl, fun _ => nothing _ rfl⟩

/-- A frame with a list and with two locals. -/
def started : Frame :=
  ⟨.object [("items", .list [.int 1, .int 2])], [("a", .int 1), ("b", .int 2)], []⟩

/-- Assignments in a choice, in a loop and behind a failure. -/
def scattered : List Node :=
  [.choice ⟨"a", none⟩ [.block "x" [.assign "b" (.literal (.int 3)), .assign "c" (.path "a")]]
      (.otherwise [.assign "d" (.literal .null)]),
    .loop "i" (.path "items") none [.assign "a" (.path "i"), .assign "e" (.path "i")],
    .output (.path "missing"), .assign "a" (.literal .null)]

theorem assignments_stay_scattered :
    (render ⟨none, [], 64⟩ started scattered).1 = .error (.of (.variableNotFound "missing")) ∧
      (render ⟨none, [], 64⟩ started scattered).2 =
        [("a", .int 1), ("b", .int 3), ("c", .int 1)] ∧
      "e" ∉ assignedAll scattered ∧
      Table.find? "e" (render ⟨none, [], 64⟩ started scattered).2 = none := by
  have other : "e" ∉ assignedAll scattered := by decide
  obtain ⟨-, stays, -, -⟩ := assignments_stay ⟨none, [], 64⟩ started scattered
  exact ⟨rfl, rfl, other, stays "e" other⟩

end Renderer

end Stencil
