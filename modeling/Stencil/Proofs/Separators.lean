/-
# Splitting and joining

A text is split at a separator from left to right, and joined again with the same
separator it is the text. Occurrences of the separator may overlap each other and
lie at either end: what counts is that a piece ends where an occurrence begins for
the first time, so no piece holds one (`Text.not_infix_of_mem_splitOn`), although two
pieces with what stands between them may.

The way back needs more. A list of pieces that do not hold the separator need not be
what their joined text is split into, since a separator of several characters may
begin in a piece and end behind it. With one character it cannot
(`Text.splitOn_joinWith`).

Key theorems: `Text.not_infix_of_mem_splitOn`, `Text.splitOn_joinWith`,
`Filter.join_undoes_split`.
-/
import Mathlib.Data.List.Infix
import Stencil.Filter.Builtin

namespace Stencil

namespace Text

variable {α : Type}

/-- The first of some pieces stands at the head of the joined text. -/
theorem prefix_joinWith (sep piece : List α) (pieces : List (List α)) :
    piece <+: joinWith sep (piece :: pieces) := by
  cases pieces with
  | nil => exact List.prefix_refl piece
  | cons next pieces =>
    rw [joinWith, List.append_assoc]
    exact List.prefix_append _ _

/-- With nothing between them the single items are the text. -/
theorem joinWith_singletons (cs : List α) : joinWith [] (cs.map fun c => [c]) = cs := by
  induction cs with
  | nil => rfl
  | cons c cs ih =>
    cases cs with
    | nil => rfl
    | cons d ds =>
      rw [List.map_cons] at ih
      rw [List.map_cons, List.map_cons, joinWith, ih]
      rfl

variable [BEq α] [LawfulBEq α]

theorem not_infix_of_mem_splitFrom {sep : List α} (proper : sep ≠ []) :
    ∀ (skip : Nat) (cs : List α), ∀ piece ∈ splitFrom sep skip cs, ¬sep <:+: piece
  | _, [] => by
    intro piece member within
    rw [splitFrom, List.mem_singleton] at member
    subst member
    exact proper (List.infix_nil.mp within)
  | skip + 1, _ :: cs => by
    rw [splitFrom]
    exact not_infix_of_mem_splitFrom proper skip cs
  | 0, c :: cs => by
    rw [splitFrom]
    by_cases begins : sep.isPrefixOf (c :: cs) = true
    · rw [if_pos begins, List.forall_mem_cons]
      exact ⟨fun within => proper (List.infix_nil.mp within),
        not_infix_of_mem_splitFrom proper _ cs⟩
    · rw [if_neg begins]
      have rest := not_infix_of_mem_splitFrom proper 0 cs
      have whole := joinWith_splitFrom sep proper 0 cs
      cases pieces : splitFrom sep 0 cs with
      | nil => exact absurd pieces (splitFrom_ne_nil sep 0 cs)
      | cons piece more =>
        rw [pieces, List.forall_mem_cons] at rest
        rw [pieces, List.drop_zero] at whole
        refine List.forall_mem_cons.mpr ⟨fun within => ?_, rest.2⟩
        rcases List.infix_cons_iff.mp within with front | later
        · -- The piece stands at the head of the text, so the separator would begin there.
          have head : c :: piece <+: c :: cs :=
            List.cons_prefix_cons.mpr ⟨rfl, whole ▸ prefix_joinWith sep piece more⟩
          exact begins (List.isPrefixOf_iff_prefix.mpr (front.trans head))
        · exact rest.1 later

/-- **No piece holds the separator.** -/
theorem not_infix_of_mem_splitOn {sep cs piece : List α} (proper : sep ≠ [])
    (member : piece ∈ splitOn sep cs) : ¬sep <:+: piece :=
  not_infix_of_mem_splitFrom proper 0 cs piece member

/-- A text is split at the first mark. -/
theorem splitOn_append {mark : α} {piece : List α} (absent : mark ∉ piece) (cs : List α) :
    splitOn [mark] (piece ++ [mark] ++ cs) = piece :: splitOn [mark] cs := by
  induction piece with
  | nil => simp [splitOn, splitFrom, List.isPrefixOf]
  | cons c piece ih =>
    rw [List.mem_cons, not_or] at absent
    have other : [mark].isPrefixOf (c :: (piece ++ [mark] ++ cs)) = false := by
      simpa [List.isPrefixOf] using absent.1
    have rest := ih absent.2
    unfold splitOn at rest ⊢
    rw [List.cons_append, List.cons_append, splitFrom, other, rest]
    rfl

/-- **Pieces without a mark are what their joined text is split into.** -/
theorem splitOn_joinWith {mark : α} {pieces : List (List α)} (some : pieces ≠ [])
    (absent : ∀ piece ∈ pieces, mark ∉ piece) :
    splitOn [mark] (joinWith [mark] pieces) = pieces := by
  induction pieces with
  | nil => exact absurd rfl some
  | cons piece pieces ih =>
    rw [List.forall_mem_cons] at absent
    cases pieces with
    | nil => exact splitOn_of_not_mem absent.1
    | cons next pieces =>
      rw [joinWith, splitOn_append absent.1, ih (List.cons_ne_nil _ _) absent.2]

end Text

namespace Filter

/-! ### Items that are texts -/

/-- A text is printed as it is, be there halves of characters in it or not. -/
theorem itemPoints_ofPoints (ps : List CodePoint) : itemPoints (.ofPoints ps) = ps := by
  rcases Value.ofPoints_cases ps with ⟨s, made, rfl⟩ | made
  · have whole : (Value.str s).halves.isEmpty = true := by
      simp [Value.halves, Value.codePoints, CodePoint.half?, List.filterMap_map, Function.comp_def]
    rw [made, itemPoints, if_pos whole]
    · rfl
    · simp
  · rw [made]
    rfl

theorem anyLong_texts (pieces : List (List CodePoint)) :
    Value.anyLong (pieces.map Value.ofPoints) = false := by
  induction pieces with
  | nil => rfl
  | cons ps pieces ih =>
    have short : (Value.ofPoints ps).hasLong = false := by
      rcases Value.ofPoints_cases ps with ⟨s, made, -⟩ | made <;> rw [made] <;> rfl
    rw [List.map_cons, Value.anyLong, short, ih]
    rfl

/-- What a filter takes for the separator. -/
def separator (argument : Option String) : List CodePoint :=
  (argument.getD "").toList.map .char

theorem join_texts (pieces : List (List CodePoint)) (argument : Option String) :
    join (.list (pieces.map Value.ofPoints)) argument =
      .ok (.ofPoints (Text.joinWith (separator argument) pieces)) := by
  have short : (Value.list (pieces.map Value.ofPoints)).hasLong = false := anyLong_texts pieces
  have items : (pieces.map Value.ofPoints).map itemPoints = pieces := by
    simp only [List.map_map, Function.comp_def, itemPoints_ofPoints, List.map_id']
  unfold join Value.unlessLong
  rw [short]
  simp only [Value.items?, items, Bool.false_eq_true, if_false, separator]

theorem split_text (ps : List CodePoint) (argument : Option String) :
    split (.ofPoints ps) argument = .ok (.list ((splitText argument ps).map .ofPoints)) := by
  rcases Value.ofPoints_cases ps with ⟨s, made, rfl⟩ | made
  · rw [made]
    rfl
  · rw [made]
    rfl

/-- Without a separator a text is split into its code points. -/
theorem splitText_of_empty {argument : Option String} (empty : separator argument = [])
    (ps : List CodePoint) : splitText argument ps = ps.map fun p => [p] := by
  have none : given argument = none := by
    cases argument with
    | none => rfl
    | some s =>
      have blank : s = "" := by simpa [separator] using empty
      rw [blank]
      rfl
  rw [splitText, none]

theorem splitText_of_proper {argument : Option String} (proper : separator argument ≠ [])
    (ps : List CodePoint) : splitText argument ps = Text.splitOn (separator argument) ps := by
  cases argument with
  | none => exact absurd rfl proper
  | some s =>
    have some : s.isEmpty = false := by simpa [separator] using proper
    simp only [splitText, given, some, Bool.false_eq_true, if_false, separator, Option.getD_some]

/-! ### The filters -/

/-- **Joining undoes splitting.** A text, a row of code points, is split into a list of texts, and
joined with the same argument they are the text again. With a separator there is at least one piece
and none of them holds it; without one they are the single code points. The other way round, texts
without a certain character, one at least, are what their joined text is split into at that
character. -/
theorem join_undoes_split (world : Surroundings) :
    (∀ (argument : Option String) (ps : List CodePoint), ∃ pieces : List (List CodePoint),
      Filter.apply (builtins world) (.ofPoints ps) ⟨"split", argument⟩ =
        .ok (.list (pieces.map .ofPoints)) ∧
      Filter.apply (builtins world) (.list (pieces.map .ofPoints)) ⟨"join", argument⟩ =
        .ok (.ofPoints ps) ∧
      (separator argument ≠ [] → pieces ≠ [] ∧ ∀ piece ∈ pieces, ¬separator argument <:+: piece) ∧
      (separator argument = [] → pieces = ps.map fun p => [p])) ∧
    ∀ (mark : Char) (pieces : List (List CodePoint)), pieces ≠ [] →
      (∀ piece ∈ pieces, .char mark ∉ piece) → ∃ joined : List CodePoint,
        Filter.apply (builtins world) (.list (pieces.map .ofPoints))
          ⟨"join", some (String.singleton mark)⟩ = .ok (.ofPoints joined) ∧
        Filter.apply (builtins world) (.ofPoints joined)
          ⟨"split", some (String.singleton mark)⟩ = .ok (.list (pieces.map .ofPoints)) := by
  constructor
  · intro argument ps
    refine ⟨splitText argument ps, split_text ps argument, ?_, fun proper => ?_, fun empty => ?_⟩
    · have whole : Text.joinWith (separator argument) (splitText argument ps) = ps := by
        by_cases empty : separator argument = []
        · rw [splitText_of_empty empty, empty, Text.joinWith_singletons]
        · rw [splitText_of_proper empty, Text.joinWith_splitOn empty]
      have joined := join_texts (splitText argument ps) argument
      rwa [whole] at joined
    · rw [splitText_of_proper proper]
      exact ⟨Text.splitOn_ne_nil _ ps, fun piece member =>
        Text.not_infix_of_mem_splitOn proper member⟩
    · exact splitText_of_empty empty ps
  · intro mark pieces some absent
    have one : separator (.some (String.singleton mark)) = [.char mark] := by simp [separator]
    refine ⟨Text.joinWith [.char mark] pieces, ?_, ?_⟩
    · have joined := join_texts pieces (.some (String.singleton mark))
      rwa [one] at joined
    · have pieces' := split_text (Text.joinWith [.char mark] pieces) (.some (String.singleton mark))
      have proper : separator (.some (String.singleton mark)) ≠ [] := by simp [one]
      rwa [splitText_of_proper proper, one, Text.splitOn_joinWith some absent] at pieces'

theorem join_undoes_split_list :
    Filter.apply (builtins .still) (.str "a, b,, c") ⟨"split", some ", "⟩ =
        .ok (.list [.str "a", .str "b,", .str "c"]) ∧
      ¬separator (some ", ") <:+: "b,".toList.map .char ∧
      Filter.apply (builtins .still) (.list [.str "a", .str "b,", .str "c"]) ⟨"join", some ", "⟩ =
        .ok (.str "a, b,, c") ∧
      ∃ joined : List CodePoint,
        Filter.apply (builtins .still) (.list [.str "", .str "a, b"]) ⟨"join", some ";"⟩ =
          .ok (.ofPoints joined) ∧
        Filter.apply (builtins .still) (.ofPoints joined) ⟨"split", some ";"⟩ =
          .ok (.list [.str "", .str "a, b"]) := by
  obtain ⟨forth, back⟩ := join_undoes_split .still
  obtain ⟨pieces, split, joined, proper, -⟩ := forth (some ", ") ("a, b,, c".toList.map .char)
  have made : Filter.apply (builtins .still) (.str "a, b,, c") ⟨"split", some ", "⟩ =
      .ok (.list ((["a", "b,", "c"].map fun s => s.toList.map .char).map .ofPoints)) := rfl
  have same : pieces = ["a", "b,", "c"].map fun s => s.toList.map .char :=
    List.map_injective_iff.mpr (fun _ _ => Value.ofPoints_injective)
      (Value.list.inj (Except.ok.inj (split.symm.trans made)))
  subst same
  obtain ⟨-, clear⟩ := proper (by decide)
  exact ⟨made, clear _ (by simp), joined,
    back ';' [[], "a, b".toList.map .char] (by simp) (by decide)⟩

end Filter
end Stencil
