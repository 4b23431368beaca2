/-
# Inheritance is substitution

What a chain is merged into can be said without any bookkeeping. Take the layout
of the root, with the assignments of the other templates before it and the rest
of their content after it. For every block in it put the version that is
nearest to the leaf, for every parent mark in a version the next version
towards the root, and for every included template what it is merged into; and
go on in what was put in, for as long as it takes. The blocks and parent marks
of a version are those of its own template, wherever in its text the block
stands.

Key definitions: `Substitution.nearest`, `Substitution.fillNodes`,
`Substitution.version`, `Substitution.layout`, `Substitution.merged`,
`Substitution.Lineage`.
-/
import Stencil.Proofs.Blocks

namespace Stencil.Substitution

open Merging

/-! ### Substitution

A chain is given as a lineage here: the leaf first, and then each template after
the one that extends it. -/

/-- The version of a block that is nearest in a lineage, and the templates beyond it. -/
def nearest (name : String) : List Template → Option (List Node × List Template)
  | [] => none
  | t :: older =>
    match t.body? name with
    | some body => some (body, older)
    | none => nearest name older

/-- What nodes stand for; nothing where substitution does not come to an end. -/
structure Filling where
  block : String → Option (List Node)
  parent : Option (List Node)
  included : String → Option (List Node)

mutual

/-- A node with what it stands for put in. -/
def fillNode (f : Filling) : Node → Option (List Node)
  | .block name _ => (f.block name).map fun body => [.block name body]
  | .parent => f.parent
  | .inclusion name => f.included name
  | .loop item source filter body =>
    (fillNodes f body).map fun body => [.loop item source filter body]
  | .choice c body rest =>
    (fillNodes f body).bind fun body =>
      (fillAlternative f rest).map fun rest => [.choice c body rest]
  | .imports _ _ => some []
  | .inherit _ => some []
  | .definition _ _ _ => some []
  | .text s => some [.text s]
  | .output e => some [.output e]
  | .assign name e => some [.assign name e]

def fillAlternative (f : Filling) : Alternative → Option Alternative
  | .choice c body rest =>
    (fillNodes f body).bind fun body =>
      (fillAlternative f rest).map fun rest => .choice c body rest
  | .otherwise body => (fillNodes f body).map .otherwise

/-- Nodes with what they stand for put in. -/
def fillNodes (f : Filling) : List Node → Option (List Node)
  | [] => some []
  | n :: ns =>
    (fillNode f n).bind fun made => (fillNodes f ns).map fun more => made ++ more

end

/-- The nearest version of a block in part of a lineage with everything put in, where versions stand
inside one another at most so deep; no nodes if there is no version. -/
def version (included : String → Option (List Node)) (lineage : List Template) :
    Nat → String → List Template → Option (List Node)
  | 0, _, _ => none
  | depth + 1, name, part =>
    match nearest name part with
    | none => some []
    | some (body, older) =>
      fillNodes
        ⟨fun b => version included lineage depth b lineage, version included lineage depth name older,
          included⟩ body

/-- The assignments at the top level. -/
def isAssignment : Node → Bool
  | .assign _ _ => true
  | _ => false

/-- The nodes of a template that go after the layout, when `earlier` are the templates towards the
root: content, and blocks that these do not have. -/
def trails (earlier : List Template) : Node → Bool
  | .inherit _ => false
  | .assign _ _ => false
  | .imports _ _ => false
  | .text s => !Text.allBlank s.toList
  | .block name _ => !earlier.any fun t => (t.body? name).isSome
  | _ => true

/-- What goes after the layout, with the templates up to the ones at hand. -/
def trailing : List Template → List Template → List Node
  | _, [] => []
  | earlier, t :: later => t.nodes.filter (trails earlier) ++ trailing (earlier ++ [t]) later

/-- The layout of a chain, given root first, with what goes before and after it. -/
def layout : List Template → List Node
  | [] => []
  | root :: later =>
    (later.flatMap fun t => t.nodes.filter isAssignment) ++ root.nodes ++ trailing [root] later

/-- What a lineage is merged into, where versions stand inside one another at most so deep. -/
def merged (included : String → Option (List Node)) (lineage : List Template) (depth : Nat) :
    Option (List Node) :=
  fillNodes ⟨fun b => version included lineage depth b lineage, some [], included⟩
    (layout lineage.reverse)

/-- The templates that one leads to by way of `extends`. -/
inductive Lineage (look : String → Except Failure Template) : Template → List Template → Prop
  | root {t} (last : t.parent = none) : Lineage look t [t]
  | extends {t name u us} (next : t.parent = some name) (found : look name = .ok u)
    (rest : Lineage look u us) : Lineage look t (t :: us)

/-! ### Results that stay

With more room for versions inside one another a result that is there stays as
it is. -/

/-- From some depth on there is this result. -/
def Settles {α : Type} (f : Nat → Option α) (a : α) : Prop :=
  ∃ enough, ∀ depth, enough ≤ depth → f depth = some a

namespace Settles

variable {α β γ : Type} {f : Nat → Option α} {a : α}

theorem const (a : α) : Settles (fun _ => some a) a :=
  ⟨0, fun _ _ => rfl⟩

theorem map (h : Settles f a) (g : α → β) : Settles (fun depth => (f depth).map g) (g a) := by
  obtain ⟨enough, h⟩ := h
  exact ⟨enough, fun depth hd => by simp only [h depth hd, Option.map_some]⟩

theorem both {f' : Nat → Option β} {b : β} (h : Settles f a) (h' : Settles f' b) (g : α → β → γ) :
    Settles (fun depth => (f depth).bind fun a => (f' depth).map fun b => g a b) (g a b) := by
  obtain ⟨enough, h⟩ := h
  obtain ⟨enough', h'⟩ := h'
  refine ⟨max enough enough', fun depth hd => ?_⟩
  simp only [h depth (by omega), h' depth (by omega), Option.bind_some, Option.map_some]

/-- One step later. -/
theorem later {g : Nat → Option α} (h : Settles f a) (hg : ∀ depth, g (depth + 1) = f depth) :
    Settles g a := by
  obtain ⟨enough, h⟩ := h
  refine ⟨enough + 1, fun depth hd => ?_⟩
  obtain ⟨depth, rfl⟩ : ∃ n, depth = n + 1 := ⟨depth - 1, by omega⟩
  rw [hg, h depth (by omega)]

end Settles

/-! ### Versions in a lineage

A version that goes by a name and a level is the nearest one in those parts of
the lineage that have so many more versions of the block. -/

theorem bodies_of_nearest {name : String} {body : List Node} {older : List Template} :
    ∀ {part : List Template}, nearest name part = some (body, older) →
      older <:+ part ∧ Chain.bodies name part = body :: Chain.bodies name older
  | t :: part, h => by
    unfold nearest at h
    unfold Chain.bodies
    rw [List.filterMap_cons]
    cases hb : t.body? name with
    | none =>
      rw [hb] at h
      obtain ⟨within, same⟩ := bodies_of_nearest h
      exact ⟨within.trans (List.suffix_cons _ _), same⟩
    | some b =>
      rw [hb] at h
      cases h
      exact ⟨List.suffix_cons _ _, rfl⟩

theorem nearest_eq_none {name : String} : ∀ {part : List Template},
    nearest name part = none ↔ Chain.bodies name part = []
  | [] => by simp [nearest, Chain.bodies]
  | t :: part => by
    have ih : nearest name part = none ↔ Chain.bodies name part = [] := nearest_eq_none
    unfold nearest Chain.bodies
    rw [List.filterMap_cons]
    cases t.body? name with
    | none => exact ih
    | some b => simp

/-- A version is the nearest one in part of a lineage. -/
structure Stands (lineage : List Template) (key : BlockKey) (part : List Template) : Prop where
  within : part <:+ lineage
  level : (Chain.bodies key.1 part).length = key.2 + 1

theorem bodies_reverse (name : String) (lineage : List Template) :
    Chain.bodies name lineage.reverse = (Chain.bodies name lineage).reverse := by
  simp [Chain.bodies, List.filterMap_reverse]

theorem Stands.nearest {lineage part : List Template} {key : BlockKey} (h : Stands lineage key part) :
    ∃ body older, nearest key.1 part = some (body, older) ∧
      (Chain.bodies key.1 lineage.reverse)[key.2]? = some body ∧
      older <:+ lineage ∧ (Chain.bodies key.1 older).length = key.2 := by
  rcases hn : Substitution.nearest key.1 part with _ | ⟨body, older⟩
  · have level := h.level
    rw [nearest_eq_none.mp hn] at level
    cases level
  · obtain ⟨within, same⟩ := bodies_of_nearest hn
    have level := h.level
    rw [same, List.length_cons] at level
    have length : (Chain.bodies key.1 older).length = key.2 := by omega
    refine ⟨body, older, rfl, ?_, within.trans h.within, length⟩
    obtain ⟨newer, rfl⟩ := h.within
    have split : Chain.bodies key.1 (newer ++ part).reverse =
        (Chain.bodies key.1 older).reverse ++ body :: (Chain.bodies key.1 newer).reverse := by
      rw [bodies_reverse, Chain.bodies, List.filterMap_append, ← Chain.bodies, ← Chain.bodies, same]
      simp
    rw [split, List.getElem?_append_right (by simp [length])]
    simp [length]

theorem exists_stands {name : String} {level : Nat} : ∀ {lineage : List Template},
    level < (Chain.bodies name lineage).length → ∃ part, Stands lineage (name, level) part
  | t :: lineage, h => by
    by_cases last : (Chain.bodies name (t :: lineage)).length = level + 1
    · exact ⟨t :: lineage, List.suffix_rfl, last⟩
    · have fewer : (Chain.bodies name (t :: lineage)).length ≤
          (Chain.bodies name lineage).length + 1 := by
        unfold Chain.bodies
        rw [List.filterMap_cons]
        cases t.body? name <;> simp
      have beyond : level < (Chain.bodies name lineage).length := by omega
      obtain ⟨part, hp⟩ := exists_stands beyond
      exact ⟨part, hp.within.trans (List.suffix_cons _ _), hp.level⟩

end Stencil.Substitution
