/-
# The limit on calls of macros

However macros call each other, a body is rendered at no depth beyond the limit.
A call that would go deeper fails, and nothing catches this failure: a filter
stands in for missing variables only. So it is what the whole rendering ends
with. A rendering that does not end so never comes to the limit, and ends the
same, by the same steps, under any higher one.

Key definitions: `Evaluation.Cut`.
Key theorems: `Evaluation.RendersAll.depths`, `Evaluation.RendersAll.higher`,
`Renderer.limit_only_cuts`.
-/
import Stencil.Proofs.Evaluation

namespace Stencil

namespace Evaluation

open Renderer

variable {r : Renderer}

/-! ### Depths -/

/-- The depths below a frame that a limit allows. -/
def Allowed (limit : Int) (k : Nat) (ds : List Nat) : Prop :=
  ∀ depth ∈ ds, k < depth ∧ (depth : Int) ≤ limit

namespace Allowed

variable {limit : Int} {k : Nat} {ds ds' : List Nat}

theorem nil : Allowed limit k [] :=
  fun _ h => nomatch h

theorem append (h : Allowed limit k ds) (h' : Allowed limit k ds') : Allowed limit k (ds ++ ds') :=
  fun depth member => (List.mem_append.mp member).elim (h depth) (h' depth)

/-- A body one level deeper, where there is room for it. -/
theorem body (room : (k : Int) < limit) (h : Allowed limit (k + 1) ds) :
    Allowed limit k ((k + 1) :: ds) := by
  refine List.forall_mem_cons.mpr ⟨⟨Nat.lt_succ_self k, by omega⟩, fun depth member => ?_⟩
  have ⟨deeper, within⟩ := h depth member
  exact ⟨Nat.lt_of_succ_lt deeper, within⟩

end Allowed

mutual

theorem Evaluates.depths {k : Nat} {f : Frame} {e : Expr} {ds : List Nat}
    {result : Except Failure Value} (h : Evaluates r k f e ds result) : Allowed r.limit k ds := by
  match h with
  | .literal => exact .nil
  | .path => exact .nil
  | .filtered inner => exact inner.depths
  | .arity _ _ => exact .nil
  | .tooDeep _ _ _ => exact .nil
  | .argumentFails _ _ _ values => exact values.depths
  | .runs _ _ room values body => exact values.depths.append (body.depths.body room)
  | .unknown _ _ => exact .nil
  | .operandFails _ _ values => exact values.depths
  | .function _ _ values => exact values.depths

theorem EvaluatesAll.depths {k : Nat} {f : Frame} {es : List Expr} {ds : List Nat}
    {result : Except Failure (List Value)} (h : EvaluatesAll r k f es ds result) :
    Allowed r.limit k ds := by
  match h with
  | .nil => exact .nil
  | .cons first others => exact first.depths.append others.depths
  | .consFails first => exact first.depths

theorem Renders.depths {k : Nat} {f : Frame} {n : Node} {ds : List Nat}
    {pieces : Except Failure (List String)} {locals : Table Value}
    (h : Renders r k f n ds pieces locals) : Allowed r.limit k ds := by
  match h with
  | .text => exact .nil
  | .output value => exact value.depths
  | .assign value => exact value.depths
  | .assignFails value => exact value.depths
  | .loop source _ inner => exact source.depths.append inner.depths
  | .loopFails source _ => exact source.depths
  | .choice branch => exact branch.depths
  | .block inner => exact inner.depths
  | .inclusion => exact .nil
  | .inherit => exact .nil
  | .definition => exact .nil
  | .imports => exact .nil
  | .parent => exact .nil

theorem RendersRest.depths {k : Nat} {f : Frame} {a : Alternative} {ds : List Nat}
    {pieces : Except Failure (List String)} {locals : Table Value}
    (h : RendersRest r k f a ds pieces locals) : Allowed r.limit k ds := by
  match h with
  | .fails _ => exact .nil
  | .holds _ inner => exact inner.depths
  | .next _ others => exact others.depths
  | .otherwise inner => exact inner.depths

/-- **Bodies of macros are rendered at depths that the limit allows.** -/
theorem RendersAll.depths {k : Nat} {f : Frame} {ns : List Node} {ds : List Nat}
    {pieces : Except Failure (List String)} {locals : Table Value}
    (h : RendersAll r k f ns ds pieces locals) : Allowed r.limit k ds := by
  match h with
  | .nil => exact .nil
  | .cons first others => exact first.depths.append others.depths
  | .consFails first => exact first.depths

theorem RendersItems.depths {k : Nat} {macros : Table Macro} {body : List Node} {cs : List Value}
    {ds : List Nat} {pieces : Except Failure (List String)}
    (h : RendersItems r k macros body cs ds pieces) : Allowed r.limit k ds := by
  match h with
  | .nil => exact .nil
  | .cons first others => exact first.depths.append others.depths
  | .consFails first => exact first.depths

end

/-! ### Cuts -/

/-- A call of a macro was refused because it would have gone deeper than the limit. -/
def Cut {α : Type} (limit : Int) (result : Except Failure α) : Prop :=
  ∃ name, result = .error (.of (.macroDepth name limit))

namespace Cut

variable {α β : Type} {limit : Int}

/-- A failure that is handed on. -/
theorem error {failure : Failure} (h : Cut limit (.error failure : Except Failure α)) :
    Cut limit (.error failure : Except Failure β) := by
  obtain ⟨name, ⟨⟩⟩ := h
  exact ⟨name, rfl⟩

theorem map {result : Except Failure α} (h : Cut limit result) (g : α → β) :
    Cut limit (result.map g) := by
  obtain ⟨name, rfl⟩ := h
  exact ⟨name, rfl⟩

end Cut

/-- **No filter stands in for a call that was refused.** -/
theorem filtered_of_cut (spec : FilterSpec) (name : String) (limit : Int) :
    filtered r spec (.error (.of (.macroDepth name limit))) =
      .error (.of (.macroDepth name limit)) := by
  have present : isMissingVariable (.of (.macroDepth name limit)) = false := rfl
  unfold filtered operand
  dsimp only
  rw [present, Bool.and_false]
  rfl

/-! ### Higher limits -/

/-- A renderer with another limit. -/
abbrev withLimit (r : Renderer) (limit : Int) : Renderer :=
  { r with limit }

section

variable {limit : Int}

mutual

theorem Evaluates.higher {k : Nat} {f : Frame} {e : Expr} {ds : List Nat}
    {result : Except Failure Value} (h : Evaluates r k f e ds result) (le : r.limit ≤ limit) :
    Cut r.limit result ∨ Evaluates (withLimit r limit) k f e ds result := by
  match h with
  | .literal => exact .inr .literal
  | .path => exact .inr .path
  | .filtered inner =>
    rcases inner.higher le with ⟨name, rfl⟩ | inner
    · exact .inl ⟨name, filtered_of_cut _ name _⟩
    · exact .inr (.filtered inner)
  | .arity found differ => exact .inr (.arity found differ)
  | .tooDeep _ _ _ => exact .inl ⟨_, rfl⟩
  | .argumentFails found same room values =>
    rcases values.higher le with cut | values
    · exact .inl cut.error
    · exact .inr (.argumentFails found same (Int.lt_of_lt_of_le room le) values)
  | .runs found same room values body =>
    rcases values.higher le with ⟨_, ⟨⟩⟩ | values
    rcases body.higher le with cut | body
    · exact .inl (cut.map _)
    · exact .inr (.runs found same (Int.lt_of_lt_of_le room le) values body)
  | .unknown free unknown => exact .inr (.unknown free unknown)
  | .operandFails free known values =>
    rcases values.higher le with cut | values
    · exact .inl cut.error
    · exact .inr (.operandFails free known values)
  | .function free known values =>
    rcases values.higher le with ⟨_, ⟨⟩⟩ | values
    exact .inr (.function free known values)

theorem EvaluatesAll.higher {k : Nat} {f : Frame} {es : List Expr} {ds : List Nat}
    {result : Except Failure (List Value)} (h : EvaluatesAll r k f es ds result)
    (le : r.limit ≤ limit) :
    Cut r.limit result ∨ EvaluatesAll (withLimit r limit) k f es ds result := by
  match h with
  | .nil => exact .inr .nil
  | .cons first others =>
    rcases first.higher le with ⟨_, ⟨⟩⟩ | first
    rcases others.higher le with cut | others
    · exact .inl (cut.map _)
    · exact .inr (.cons first others)
  | .consFails first =>
    rcases first.higher le with cut | first
    · exact .inl cut.error
    · exact .inr (.consFails first)

theorem Renders.higher {k : Nat} {f : Frame} {n : Node} {ds : List Nat}
    {pieces : Except Failure (List String)} {locals : Table Value}
    (h : Renders r k f n ds pieces locals) (le : r.limit ≤ limit) :
    Cut r.limit pieces ∨ Renders (withLimit r limit) k f n ds pieces locals := by
  match h with
  | .text => exact .inr .text
  | .output value =>
    rcases value.higher le with ⟨name, rfl⟩ | value
    · exact .inl ⟨name, rfl⟩
    · exact .inr (.output value)
  | .assign value =>
    rcases value.higher le with ⟨_, ⟨⟩⟩ | value
    exact .inr (.assign value)
  | .assignFails value =>
    rcases value.higher le with cut | value
    · exact .inl cut.error
    · exact .inr (.assignFails value)
  | .loop source iterable inner =>
    rcases source.higher le with ⟨_, rfl⟩ | source
    · cases iterable
    · rcases inner.higher le with cut | inner
      · exact .inl cut
      · exact .inr (.loop source iterable inner)
  | .loopFails source fails =>
    rcases source.higher le with ⟨name, rfl⟩ | source
    · cases fails
      exact .inl ⟨name, rfl⟩
    · exact .inr (.loopFails source fails)
  | .choice branch => exact (branch.higher le).imp_right .choice
  | .block inner => exact (inner.higher le).imp_right .block
  | .inclusion => exact .inr .inclusion
  | .inherit => exact .inr .inherit
  | .definition => exact .inr .definition
  | .imports => exact .inr .imports
  | .parent => exact .inr .parent

theorem RendersRest.higher {k : Nat} {f : Frame} {a : Alternative} {ds : List Nat}
    {pieces : Except Failure (List String)} {locals : Table Value}
    (h : RendersRest r k f a ds pieces locals) (le : r.limit ≤ limit) :
    Cut r.limit pieces ∨ RendersRest (withLimit r limit) k f a ds pieces locals := by
  match h with
  | .fails test => exact .inr (.fails test)
  | .holds test inner => exact (inner.higher le).imp_right (.holds test)
  | .next test others => exact (others.higher le).imp_right (.next test)
  | .otherwise inner => exact (inner.higher le).imp_right .otherwise

/-- **A rendering that is not cut goes the same way under a higher limit.** -/
theorem RendersAll.higher {k : Nat} {f : Frame} {ns : List Node} {ds : List Nat}
    {pieces : Except Failure (List String)} {locals : Table Value}
    (h : RendersAll r k f ns ds pieces locals) (le : r.limit ≤ limit) :
    Cut r.limit pieces ∨ RendersAll (withLimit r limit) k f ns ds pieces locals := by
  match h with
  | .nil => exact .inr .nil
  | .cons first others =>
    rcases first.higher le with ⟨_, ⟨⟩⟩ | first
    rcases others.higher le with cut | others
    · exact .inl (cut.map _)
    · exact .inr (.cons first others)
  | .consFails first =>
    rcases first.higher le with cut | first
    · exact .inl cut
    · exact .inr (.consFails first)

theorem RendersItems.higher {k : Nat} {macros : Table Macro} {body : List Node} {cs : List Value}
    {ds : List Nat} {pieces : Except Failure (List String)}
    (h : RendersItems r k macros body cs ds pieces) (le : r.limit ≤ limit) :
    Cut r.limit pieces ∨ RendersItems (withLimit r limit) k macros body cs ds pieces := by
  match h with
  | .nil => exact .inr .nil
  | .cons first others =>
    rcases first.higher le with ⟨_, ⟨⟩⟩ | first
    rcases others.higher le with cut | others
    · exact .inl (cut.map _)
    · exact .inr (.cons first others)
  | .consFails first =>
    rcases first.higher le with cut | first
    · exact .inl cut
    · exact .inr (.consFails first)

end

end

end Evaluation

namespace Renderer

open Evaluation

/-- **The limit on calls of macros only cuts.** Rendering ends, as the rules say and in no other
way, and no body of a macro is rendered at a depth beyond the limit. It fails because calls are
nested too deep, or else any higher limit leads to the same text or failure and to the same locals.
No filter makes anything of a call that was refused. -/
theorem limit_only_cuts (r : Renderer) (f : Frame) (ns : List Node) :
    (∃ ds pieces, RendersAll r 0 f ns ds pieces (r.render f ns).2 ∧
      (r.render f ns).1 = pieces.map String.join) ∧
    (∀ ds pieces locals, RendersAll r 0 f ns ds pieces locals →
      r.render f ns = (pieces.map String.join, locals) ∧ ∀ depth ∈ ds, (depth : Int) ≤ r.limit) ∧
    (∀ limit, r.limit ≤ limit →
      (∃ name, (r.render f ns).1 = .error (.of (.macroDepth name r.limit))) ∨
        r.render f ns = ({ r with limit } : Renderer).render f ns) ∧
    ∀ k g e spec ds name, Evaluates r k g e ds (.error (.of (.macroDepth name r.limit))) →
      ∀ ds' result, Evaluates r k g (.filtered e spec) ds' result →
        result = .error (.of (.macroDepth name r.limit)) := by
  obtain ⟨ds, ended⟩ := ends r 0 f ns
  have text := ended.eq_render
  refine ⟨⟨ds, _, ?_, congrArg Prod.fst text⟩, fun ds' pieces locals other => ?_,
    fun limit le => ?_, fun k g e spec ds name refused ds' result whole => ?_⟩
  · rw [text]
    exact ended
  · exact ⟨other.eq_render, fun depth member => (other.depths depth member).2⟩
  · rcases ended.higher le with cut | same
    · exact .inl (text ▸ cut.map String.join)
    · exact .inr (text.trans same.eq_render.symm)
  · cases whole with
    | filtered inner =>
      rw [← inner.eq, refused.eq]
      exact filtered_of_cut spec name r.limit

/-- A macro calls itself behind a filter that stands in for missing variables. -/
example :
    ((⟨none, [], 2⟩ : Renderer).render
      ⟨.null, [], [("m", .mk [] [.output (.filtered (.call "m" []) ⟨"default", some "x"⟩)] none)]⟩
      [.output (.call "m" [])]).1 = .error (.of (.macroDepth "m" 2)) := by
  rfl

end Renderer

end Stencil
