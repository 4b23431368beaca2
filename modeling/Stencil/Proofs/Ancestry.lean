/-
# The templates above a template

A template may extend another one, which may extend a third one, and so on. Going
up from a template ends at one that extends none, or at a name that leads to no
template; or it does not end at all. Each template leads to one other at most, so
there is one way up, and it does not end if it runs into a cycle. Among finitely
many sources it runs into a cycle whenever it does not end: where to go next is
told by the source alone, so a source that comes twice comes again and again.

Key definitions: `Ancestry.Extends`, `Ancestry.Ascends`, `Ancestry.Cyclic`.
Key theorems: `Ancestry.Ascends.not_cyclic`, `Ancestry.ascends_of_not_cyclic`.
-/
import Mathlib.Data.List.Chain
import Mathlib.Data.List.Perm.Subperm
import Mathlib.Logic.Relation
import Stencil.Proofs.Lookup

namespace Stencil.Ancestry

open Relation (ReflTransGen TransGen)

section

variable (look : String → Except Failure Template)

/-- A template extends another one, by its name. -/
def Extends (t u : Template) : Prop :=
  ∃ name, t.parent = some name ∧ look name = .ok u

/-- The way up from a template ends: the templates on it, nearest first, and the name that leads to
no template in the end, if there is one, with the reason. -/
inductive Ascends : Template → List Template → Option (String × Failure) → Prop
  | root {t : Template} (last : t.parent = none) : Ascends t [] none
  | lost {t : Template} {name : String} {f : Failure} (next : t.parent = some name)
    (missing : look name = .error f) : Ascends t [] (some (name, f))
  | parent {t u : Template} {us : List Template} {name : String} {lost : Option (String × Failure)}
    (next : t.parent = some name) (found : look name = .ok u) (rest : Ascends u us lost) :
    Ascends t (u :: us) lost

/-- The way up from a template runs into a cycle. -/
def Cyclic (t : Template) : Prop :=
  ∃ u, ReflTransGen (Extends look) t u ∧ TransGen (Extends look) u u

/-- Going up from a template, at most so many templates come before a name comes again. -/
def WithinLimit (limit : Int) (t : Template) : Prop :=
  ∀ us, (t :: us).IsChain (Extends look) → ((t :: us).map Template.name).Nodup →
    (us.length : Int) + 1 ≤ limit

end

variable {look : String → Except Failure Template} {t u v : Template} {us vs : List Template}
  {lost lost' : Option (String × Failure)}

theorem Extends.unique (h : Extends look t u) (h' : Extends look t v) : u = v := by
  obtain ⟨name, next, found⟩ := h
  obtain ⟨name', next', found'⟩ := h'
  cases next.symm.trans next'
  cases found.symm.trans found'
  rfl

/-- Where to go from a template is told by its tree. -/
theorem parent_of_tree (same : t.tree = u.tree) : t.parent = u.parent := by
  rw [t.parent_eq, u.parent_eq, same]

theorem Extends.of_tree (h : Extends look t v) (same : t.tree = u.tree) : Extends look u v := by
  obtain ⟨name, next, found⟩ := h
  exact ⟨name, (parent_of_tree same).symm.trans next, found⟩

/-- The cycle is still ahead one step up. -/
theorem Cyclic.above (h : Cyclic look t) (step : Extends look t u) : Cyclic look u := by
  obtain ⟨v, way, round⟩ := h
  obtain ⟨w, first, rest⟩ := TransGen.head'_iff.mp (TransGen.trans_right way round)
  rw [step.unique first]
  exact ⟨v, rest, round⟩

/-- One step up there is a template, and it loads. -/
theorem Cyclic.exists_extends (h : Cyclic look t) : ∃ u, Extends look t u := by
  obtain ⟨v, way, round⟩ := h
  obtain ⟨u, first, -⟩ := TransGen.head'_iff.mp (TransGen.trans_right way round)
  exact ⟨u, first⟩

namespace Ascends

/-- One step up the way is the rest of it. -/
theorem above (h : Ascends look t us lost) (step : Extends look t u) :
    ∃ rest, us = u :: rest ∧ Ascends look u rest lost := by
  obtain ⟨name, next, found⟩ := step
  cases h with
  | root last => cases last.symm.trans next
  | lost next' missing =>
    cases next.symm.trans next'
    cases found.symm.trans missing
  | parent next' found' rest =>
    cases next.symm.trans next'
    cases found.symm.trans found'
    exact ⟨_, rfl, rest⟩

/-- **There is one way up.** -/
theorem unique (h : Ascends look t us lost) (h' : Ascends look t vs lost') :
    us = vs ∧ lost = lost' := by
  induction h generalizing vs lost' with
  | root last =>
    cases h' with
    | root => exact ⟨rfl, rfl⟩
    | lost next _ => cases last.symm.trans next
    | parent next _ _ => cases last.symm.trans next
  | lost next missing =>
    cases h' with
    | root last => cases last.symm.trans next
    | lost next' missing' =>
      cases next.symm.trans next'
      cases missing.symm.trans missing'
      exact ⟨rfl, rfl⟩
    | parent next' found _ =>
      cases next.symm.trans next'
      cases missing.symm.trans found
  | parent next found rest ih =>
    obtain ⟨rest', rfl, more⟩ := h'.above ⟨_, next, found⟩
    obtain ⟨rfl, rfl⟩ := ih more
    exact ⟨rfl, rfl⟩

theorem ancestor (h : Ascends look t us lost) (way : ReflTransGen (Extends look) t u) :
    ∃ rest, Ascends look u rest lost := by
  induction way with
  | refl => exact ⟨us, h⟩
  | tail _ step ih =>
    obtain ⟨rest, there⟩ := ih
    obtain ⟨rest', -, further⟩ := there.above step
    exact ⟨rest', further⟩

/-- Going up, the rest of the way gets shorter. -/
theorem shorter (h : Ascends look t us lost) (way : TransGen (Extends look) t u) :
    ∃ rest, rest.length < us.length ∧ Ascends look u rest lost := by
  induction way with
  | single step =>
    obtain ⟨rest, rfl, there⟩ := h.above step
    exact ⟨rest, Nat.lt_succ_self _, there⟩
  | tail _ step ih =>
    obtain ⟨rest, less, there⟩ := ih
    obtain ⟨rest', rfl, further⟩ := there.above step
    exact ⟨rest', Nat.lt_of_succ_lt less, further⟩

/-- **A way that ends runs into no cycle.** -/
theorem not_cyclic (h : Ascends look t us lost) : ¬Cyclic look t := by
  rintro ⟨u, way, round⟩
  obtain ⟨rest, there⟩ := h.ancestor way
  obtain ⟨rest', less, again⟩ := there.shorter round
  rw [(there.unique again).1] at less
  exact Nat.lt_irrefl _ less

end Ascends

/-! ### Finitely many sources -/

/-- A tree that comes twice closes a cycle. -/
theorem cyclic_of_tree (way : ReflTransGen (Extends look) t u)
    (more : TransGen (Extends look) u v) (same : u.tree = v.tree) : Cyclic look t := by
  obtain ⟨w, step, rest⟩ := TransGen.head'_iff.mp more
  exact ⟨w, way.tail step, TransGen.tail' rest (step.of_tree same)⟩

/-- In a chain everything that comes later lies above. -/
theorem pairwise_of_chain (chain : (t :: us).IsChain (Extends look)) :
    (t :: us).Pairwise (TransGen (Extends look)) :=
  (chain.imp fun _ _ => TransGen.single).pairwise

/-- Where there is no cycle no tree comes twice. -/
theorem nodup_trees (free : ¬Cyclic look t) (chain : (t :: us).IsChain (Extends look)) :
    ((t :: us).map Template.tree).Nodup := by
  have up := pairwise_of_chain chain
  have way : ∀ u ∈ t :: us, ReflTransGen (Extends look) t u := fun u hu => by
    rcases List.mem_cons.mp hu with rfl | later
    · exact .refl
    · exact (List.rel_of_pairwise_cons up later).to_reflTransGen
  refine List.Pairwise.map Template.tree (fun _ _ differ => differ) ?_
  exact up.imp_of_mem fun hu _ more same => free (cyclic_of_tree (way _ hu) more same)

/-- Either the way up ends after so many steps at most, or it goes on for so many. -/
theorem ascends_or_chain (n : Nat) (t : Template) :
    (∃ us lost, Ascends look t us lost ∧ us.length + lost.toList.length ≤ n) ∨
      ∃ us, us.length = n ∧ (t :: us).IsChain (Extends look) := by
  induction n generalizing t with
  | zero => exact .inr ⟨[], rfl, List.isChain_singleton t⟩
  | succ n ih =>
    cases next : t.parent with
    | none => exact .inl ⟨[], none, .root next, Nat.zero_le _⟩
    | some name =>
      cases found : look name with
      | error f =>
        exact .inl ⟨[], some (name, f), .lost next found, Nat.succ_le_succ (Nat.zero_le n)⟩
      | ok u =>
        rcases ih u with ⟨us, lost, rest, few⟩ | ⟨us, long, chain⟩
        · refine .inl ⟨u :: us, lost, .parent next found rest, ?_⟩
          rw [List.length_cons]
          omega
        · refine .inr ⟨u :: us, congrArg Nat.succ long, ?_⟩
          exact List.isChain_cons_cons.mpr ⟨⟨name, next, found⟩, chain⟩

/-- **Among finitely many sources the way up ends or runs into a cycle**, and it ends after no more
steps than there are sources. -/
theorem ascends_of_not_cyclic {trees : List (List Node)} (start : t.tree ∈ trees)
    (known : ∀ name u, look name = .ok u → u.tree ∈ trees) (free : ¬Cyclic look t) :
    ∃ us lost, Ascends look t us lost ∧ us.length + lost.toList.length ≤ trees.length := by
  rcases ascends_or_chain trees.length t with ended | ⟨us, long, chain⟩
  · exact ended
  · have inside : (t :: us).map Template.tree ⊆ trees := fun tree member => by
      obtain ⟨u, hu, rfl⟩ := List.mem_map.mp member
      rcases List.mem_cons.mp hu with rfl | later
      · exact start
      · have way := List.rel_of_pairwise_cons (pairwise_of_chain chain) later
        obtain ⟨w, -, name, -, found⟩ := TransGen.tail'_iff.mp way
        exact known name u found
    have few := (List.subperm_of_subset (nodup_trees free chain) inside).length_le
    rw [List.length_map, List.length_cons] at few
    omega

end Stencil.Ancestry
