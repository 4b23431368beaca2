/-
# Cutting text

Text is cut at the first occurrence of a mark, or at every occurrence of a
separator from left to right. The pieces of a cut, joined by the separator,
give the text back, and a replacement is a cut followed by a join with
something else. A text may be a row of characters or of code points.

Key definitions: `cut`, `splitOn`, `joinWith`, `replaceAll`.
Key theorems: `cut_append`, `splitOn_ne_nil`, `joinWith_splitOn`, `splitOn_of_not_mem`.
-/
namespace Stencil.Text

/-- What stands before the first `mark`, and what stands after it if there is one. -/
def cut (mark : Char) : List Char → List Char × Option (List Char)
  | [] => ([], none)
  | c :: cs =>
    if c = mark then ([], some cs)
    else (c :: (cut mark cs).1, (cut mark cs).2)

/-- A text is cut at the first mark. -/
theorem cut_append {mark : Char} {cs : List Char} (plain : mark ∉ cs) (rest : List Char) :
    cut mark (cs ++ mark :: rest) = (cs, some rest) := by
  induction cs with
  | nil => simp [cut]
  | cons c cs ih =>
    rw [List.mem_cons, not_or] at plain
    rw [List.cons_append, cut, if_neg (Ne.symm plain.1), ih plain.2]

theorem cut_plain {mark : Char} {cs : List Char} (plain : mark ∉ cs) : cut mark cs = (cs, none) := by
  induction cs with
  | nil => rfl
  | cons c cs ih =>
    rw [List.mem_cons, not_or] at plain
    rw [cut, if_neg (Ne.symm plain.1), ih plain.2]

variable {α : Type}

/-- Pieces between occurrences of a non-empty separator; `skip` characters of an
occurrence are still to be passed over. -/
def splitFrom [BEq α] (sep : List α) : Nat → List α → List (List α)
  | _, [] => [[]]
  | skip + 1, _ :: cs => splitFrom sep skip cs
  | 0, c :: cs =>
    if sep.isPrefixOf (c :: cs) then [] :: splitFrom sep (sep.length - 1) cs
    else
      match splitFrom sep 0 cs with
      | [] => [[c]]
      | piece :: pieces => (c :: piece) :: pieces

/-- The pieces between the occurrences of a non-empty separator. -/
def splitOn [BEq α] (sep cs : List α) : List (List α) :=
  splitFrom sep 0 cs

/-- The pieces in order with the separator between neighbours. -/
def joinWith (sep : List α) : List (List α) → List α
  | [] => []
  | [piece] => piece
  | piece :: next :: pieces => piece ++ sep ++ joinWith sep (next :: pieces)

/-- Every occurrence of a non-empty text gives way to another. -/
def replaceAll (search replacement cs : List Char) : List Char :=
  joinWith replacement (splitOn search cs)

/-- There is always a piece, if only an empty one. -/
theorem splitFrom_ne_nil [BEq α] (sep : List α) : ∀ (skip : Nat) (cs : List α),
    splitFrom sep skip cs ≠ []
  | _, [] => by simp [splitFrom]
  | skip + 1, _ :: cs => by simpa [splitFrom] using splitFrom_ne_nil sep skip cs
  | 0, c :: cs => by
    rw [splitFrom]
    split
    · simp
    · split <;> simp

theorem splitOn_ne_nil [BEq α] (sep cs : List α) : splitOn sep cs ≠ [] :=
  splitFrom_ne_nil sep 0 cs

theorem joinWith_cons_cons (sep piece : List α) {pieces : List (List α)} (h : pieces ≠ []) :
    joinWith sep (piece :: pieces) = piece ++ sep ++ joinWith sep pieces := by
  cases pieces with
  | nil => exact absurd rfl h
  | cons next pieces => rfl

theorem joinWith_cons_head (sep : List α) (c : α) (piece : List α) (pieces : List (List α)) :
    joinWith sep ((c :: piece) :: pieces) = c :: joinWith sep (piece :: pieces) := by
  cases pieces <;> simp [joinWith]

/-- Joining the pieces gives the text without the part of the separator that was
still to be passed over. -/
theorem joinWith_splitFrom [BEq α] [LawfulBEq α] (sep : List α) (hs : sep ≠ []) :
    ∀ (skip : Nat) (cs : List α), joinWith sep (splitFrom sep skip cs) = cs.drop skip
  | _, [] => by simp [splitFrom, joinWith]
  | skip + 1, _ :: cs => by simpa [splitFrom] using joinWith_splitFrom sep hs skip cs
  | 0, c :: cs => by
    rw [splitFrom]
    split
    · next hp =>
      rw [joinWith_cons_cons sep [] (splitFrom_ne_nil sep _ cs),
        joinWith_splitFrom sep hs (sep.length - 1) cs]
      obtain ⟨rest, hr⟩ := List.isPrefixOf_iff_prefix.mp hp
      cases sep with
      | nil => exact absurd rfl hs
      | cons d ds =>
        simp only [List.cons_append, List.cons.injEq] at hr
        obtain ⟨rfl, rfl⟩ := hr
        simp
    · have ih := joinWith_splitFrom sep hs 0 cs
      split
      · next h => exact absurd h (splitFrom_ne_nil sep 0 cs)
      · next piece pieces h =>
        rw [joinWith_cons_head, ← h, ih]
        simp

/-- **Cutting loses nothing.** The pieces, joined by the separator, are the text. -/
theorem joinWith_splitOn [BEq α] [LawfulBEq α] {sep : List α} (hs : sep ≠ []) (cs : List α) :
    joinWith sep (splitOn sep cs) = cs := by
  simpa [splitOn] using joinWith_splitFrom sep hs 0 cs

/-- A text without the mark is one piece. -/
theorem splitOn_of_not_mem [BEq α] [LawfulBEq α] {mark : α} :
    ∀ {cs : List α}, mark ∉ cs → splitOn [mark] cs = [cs]
  | [], _ => rfl
  | c :: cs, absent => by
    have rest : splitOn [mark] cs = [cs] :=
      splitOn_of_not_mem fun member => absent (List.mem_cons_of_mem c member)
    have other : ([mark].isPrefixOf (c :: cs)) = false := by
      have differ : mark ≠ c := fun same => absent (same ▸ List.mem_cons_self)
      simpa [List.isPrefixOf] using differ
    unfold splitOn at rest ⊢
    rw [splitFrom, other, rest]
    rfl

end Stencil.Text
