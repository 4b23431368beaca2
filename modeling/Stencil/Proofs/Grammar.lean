/-
# What the grammar derives

The grammar has one rule for a comparison in a condition, and it takes a known
operator only; all other rules put together what they derive. So all conditions
in what is derived are such, at every depth. A template compiles to what is
derived from its tokens, or it fails over its source.

Key definitions: `Condition.Supported`, `Template.Supported`.
Key theorems: `Phrase.Items.supported`, `Template.compile_supported`,
`Template.compile_ofSource`.
-/
import Stencil.Proofs.Closed
import Stencil.Proofs.Containment

namespace Stencil

open Merging (Asks)

/-- A comparison in a condition is by a known operator. -/
def Condition.Supported (c : Condition) : Prop :=
  ∀ op literal, c.test = some (op, literal) → (Comparison.ofSymbol? op.symbol).isSome = true

/-- All conditions in a template are by known operators. -/
def Template.Supported (t : Template) : Prop :=
  Everyone (Asks Condition.Supported) t.tree

namespace Phrase

variable {k closer : Keyword} {ts : List Terminal} {node : Node}

theorem Condition.supported {c : Stencil.Condition} (h : Condition ts c) : c.Supported := by
  cases h with
  | bare => exact nofun
  | test known _ =>
    rintro op literal ⟨⟩
    exact known

/-- What stands alone has neither bodies nor conditions. -/
theorem Plain.leaf (h : Plain ts node) : node.walk = [node] ∧ node.conditions = [] := by
  cases h with
  | text => exact ⟨rfl, rfl⟩
  | output _ => exact ⟨rfl, rfl⟩
  | tag simple => cases simple <;> exact ⟨rfl, rfl⟩

theorem Plain.supported (h : Plain ts node) : ∀ m ∈ node.walk, Asks Condition.Supported m := by
  rw [h.leaf.1]
  exact List.forall_mem_singleton.mpr (Merging.asks_of_nil h.leaf.2)

/-- A frame adds nothing to the body in it. -/
theorem Frame.supported {make : List Node → Node} {body : List Node} (h : Frame k closer ts make)
    (inner : Everyone (Asks Condition.Supported) body) :
    ∀ m ∈ (make body).walk, Asks Condition.Supported m := by
  cases h <;> exact Merging.walk_of_body rfl (Merging.asks_of_nil rfl) inner

/-- All conditions in what is left of a choice are by known operators. -/
structure Fit (a : Alternative) : Prop where
  conditions : ∀ c ∈ a.conditions, c.Supported
  bodies : ∀ m ∈ a.walk, Asks Condition.Supported m

/-- A condition and a body in front of what is left of a choice. -/
theorem Fit.cons {c : Stencil.Condition} {body : List Node} {rest : Alternative}
    (first : c.Supported) (inner : Everyone (Asks Condition.Supported) body) (other : Fit rest) :
    Fit (.choice c body rest) where
  conditions := List.forall_mem_cons.mpr ⟨first, other.conditions⟩
  bodies := List.forall_mem_append.mpr ⟨inner, other.bodies⟩

mutual

/-- **All conditions in what is derived are by known operators.** -/
theorem Items.supported {ts : List Terminal} {nodes : List Node} (h : Items ts nodes) :
    Everyone (Asks Condition.Supported) nodes := by
  match h with
  | .nil => exact Merging.everyone_nil
  | .plain first rest => exact List.forall_mem_append.mpr ⟨first.supported, rest.supported⟩
  | .frame first inner rest =>
    exact List.forall_mem_append.mpr ⟨first.supported inner.supported, rest.supported⟩
  | .choice first inner other rest =>
    have fit := Fit.cons first.supported inner.supported other.supported
    refine List.forall_mem_append.mpr ⟨?_, rest.supported⟩
    exact List.forall_mem_cons.mpr ⟨fit.conditions, fit.bodies⟩

theorem Rest.supported {ts : List Terminal} {a : Alternative} (h : Rest ts a) : Fit a := by
  match h with
  | .elif first inner other => exact .cons first.supported inner.supported other.supported
  | .otherwise inner => exact ⟨List.forall_mem_nil _, inner.supported⟩
  | .none => exact ⟨List.forall_mem_nil _, List.forall_mem_nil _⟩

end

end Phrase

/-! ### Templates -/

namespace Template

variable {name source : String}

/-- **All conditions of a compiled template are by known operators.** -/
theorem compile_supported {t : Template} (h : compile name source = .ok t) : t.Supported := by
  unfold compile at h
  split at h
  · rename_i parsed
    cases h
    obtain ⟨_, _, _, -, -, items⟩ := parseTemplate_derives parsed
    exact items.supported
  · cases h

/-- **A template that does not compile fails over its source.** -/
theorem compile_ofSource {f : Failure} (h : compile name source = .error f) : f.OfSource := by
  unfold compile at h
  split at h
  · cases h
  · rename_i parsed
    cases h
    exact (explained_of_parseTemplate parsed).ofSource.withTemplate name

end Template

end Stencil
