/-
# Imported macros are hygienic

An imported macro sees the macros of the template that it comes from, and
nothing of those among which it is put. So a call of it does what a call does in
the template itself, with whatever other macros the importing template defines,
imports or includes.

That template can be merged by itself, because it was merged on the way with
more templates in progress, and it is merged into the same then.

Key definitions: `Renderer.CallsAlike`.
Key theorems: `Renderer.callsAlike_of_taken`, `Engine.import_hygienic`.
-/
import Stencil.Proofs.Evaluation
import Stencil.Proofs.Precedence

namespace Stencil

namespace Renderer

open Evaluation

variable {r : Renderer}

/-- Calls by a name do the same over two tables of macros, at whatever depth and in whatever frames,
for all arguments that have the same values. -/
def CallsAlike (r : Renderer) (name : String) (t u : Table Macro) : Prop :=
  ∀ (k : Nat) (f f' : Frame) (arguments arguments' : List Expr) (vs : List Value),
    f.macros = t → f'.macros = u →
    r.evaluateAll (runnerAt r k) f arguments = .ok vs →
    r.evaluateAll (runnerAt r k) f' arguments' = .ok vs →
    r.evaluate (runnerAt r k) f (.call name arguments) =
      r.evaluate (runnerAt r k) f' (.call name arguments')

theorem length_of_evaluateAll {run : Runner} {f : Frame} {es : List Expr} {vs : List Value}
    (values : r.evaluateAll run f es = .ok vs) : vs.length = es.length :=
  (forall₂_of_evaluateAll values).length_eq.symm

/-- **A macro that was taken from a table is called as in that table.** -/
theorem callsAlike_of_taken {name : String} {t u : Table Macro} {q : Macro}
    (here : Table.find? name t = some (q.taken u)) (there : Table.find? name u = some q) :
    r.CallsAlike name t u := by
  intro k f f' arguments arguments' vs hf hf' values values'
  subst hf hf'
  have few : arguments.length = arguments'.length := by
    rw [← length_of_evaluateAll values, ← length_of_evaluateAll values']
  have parameters : (q.taken f'.macros).parameters = q.parameters := rfl
  by_cases same : arguments.length = q.parameters.length
  · have same' : arguments'.length = q.parameters.length := by rw [← few, same]
    by_cases full : r.limit ≤ k
    · rw [evaluate_tooDeep here (same.trans (congrArg _ parameters.symm)) full,
        evaluate_tooDeep there same' full]
    · have room : (k : Int) < r.limit := by omega
      -- the taken macro has a scope, so the frame it is called in does not matter
      have bodies : bodyFrame f (q.taken f'.macros) vs = bodyFrame f' q vs := rfl
      rw [evaluate_runs here (same.trans (congrArg _ parameters.symm)) room,
        evaluate_runs there same' room, values, values']
      show ((renderNodes r _ (bodyFrame f (q.taken f'.macros) vs) q.body).1.map _ :
        Except Failure Value) = _
      rw [bodies]
  · have differ : arguments.length ≠ (q.taken f'.macros).parameters.length := same
    have differ' : arguments'.length ≠ q.parameters.length := by rwa [← few]
    rw [evaluate_arity here differ, evaluate_arity there differ', few, parameters]

end Renderer

namespace Engine

open Merging Substitution

/-- **Imported macros are hygienic.** A name that the chain does not define, and that was imported
last from some template, stands for the macro of that template, which can be merged by itself; the
macro sees what it sees there, and a call of it does what a call does there. -/
theorem import_hygienic (e : Engine) (t : Template) (s : Session) (m : Merged)
    (h : (e.mergeTemplate t s).1 = .ok m) :
    ∃ lineage, Lineage (s.answer e.loader) t lineage ∧
      ∀ name template, Chain.macro? name lineage = none →
        Tag.lastImport? name (Chain.tags lineage.reverse) = some template →
        ∃ source q, (e.merge template s).1 = .ok source ∧
          Table.find? name source.macros = some q ∧
          Table.find? name m.macros =
            some (.mk q.parameters q.body (some (q.scope.getD source.macros))) ∧
          e.renderer.CallsAlike name m.macros source.macros := by
  obtain ⟨es, merges⟩ := (e.mergeTemplate_eq_iff t s (.ok m)).mp h
  obtain ⟨lineage, ancestry, precedence⟩ := merges.precedence (e.finds s)
  refine ⟨lineage, ancestry, fun name template absent last => ?_⟩
  obtain ⟨source, q, led, there, here⟩ := precedence.imported name template absent last
  exact ⟨source, q, merge_of_alone led, there, here, Renderer.callsAlike_of_taken here there⟩

theorem import_hygienic_shop :
    (offline.mergeTemplate shop stocked).1 = .ok ⟨[.block "x" []], shopMacros⟩ ∧
      Chain.macro? "b" [shop] = none ∧ Tag.lastImport? "b" (Chain.tags [shop]) = some "lib" ∧
      ∃ source q, (offline.merge "lib" stocked).1 = .ok source ∧
        Table.find? "b" source.macros = some q ∧
        Table.find? "b" shopMacros =
          some (.mk q.parameters q.body (some (q.scope.getD source.macros))) ∧
        offline.renderer.CallsAlike "b" shopMacros source.macros := by
  have merges : (offline.mergeTemplate shop stocked).1 = .ok ⟨[.block "x" []], shopMacros⟩ := by
    decide +kernel
  have absent : Chain.macro? "b" [shop] = none := by decide
  have last : Tag.lastImport? "b" (Chain.tags [shop]) = some "lib" := by decide
  obtain ⟨lineage, ancestry, imports⟩ := import_hygienic offline shop stocked _ merges
  have alone : Lineage (stocked.answer offline.loader) shop [shop] := .root rfl
  cases lineage_unique ancestry alone
  exact ⟨merges, absent, last, imports "b" "lib" absent last⟩

/-- The imported macro calls the other one of its own template, not that of the shop. -/
example : offline.renderer.evaluate (offline.renderer.runner 64) ⟨.object [], [], shopMacros⟩
    (.call "b" []) = .ok (.str "A") := by decide

end Engine

end Stencil
