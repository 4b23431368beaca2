/-
# Blanks

The characters that separate words: the spaces of every width, the ends of
lines and paragraphs, and the control characters that move the carriage or
separate records. Trimming text, skipping the space between the parts of a tag
and telling an empty line from a full one all mean this one set.

Key definitions: `isBlank`, `trimStart`, `trimEnd`, `trim`, `allBlank`.
Key theorems: `isBlank_of_isWhitespace`, `trim_of_allBlank`.
-/
import Stencil.Text.CharSet

namespace Stencil.Text

/-- Where the set of blanks begins and ends. -/
def blankBounds : List Nat := [
  0x9, 0xe, 0x1c, 0x21, 0x85, 0x86, 0xa0, 0xa1, 0x1680, 0x1681, 0x2000, 0x200b, 0x2028, 0x202a,
  0x202f, 0x2030, 0x205f, 0x2060, 0x3000, 0x3001]

/-- A character that separates words. -/
def isBlank (c : Char) : Bool :=
  within blankBounds c.toNat

/-- The text from its first character outside a set. -/
def trimStart (drop : Char → Bool) (cs : List Char) : List Char :=
  cs.dropWhile drop

/-- The text up to its last character outside a set. -/
def trimEnd (drop : Char → Bool) : List Char → List Char
  | [] => []
  | c :: cs =>
    match trimEnd drop cs with
    | [] => if drop c then [] else [c]
    | d :: ds => c :: d :: ds

/-- The text without the members of a set at either end. -/
def trimBy (drop : Char → Bool) (cs : List Char) : List Char :=
  trimEnd drop (trimStart drop cs)

/-- The text without blanks at either end. -/
def trim (cs : List Char) : List Char :=
  trimBy isBlank cs

/-- Text of nothing but blanks. -/
def allBlank (cs : List Char) : Bool :=
  cs.all isBlank

/-- Whitespace in the narrow sense is blank. -/
theorem isBlank_of_isWhitespace {c : Char} (h : c.isWhitespace = true) : isBlank c = true := by
  simp only [Char.isWhitespace, Bool.or_eq_true, decide_eq_true_eq] at h
  rcases h with ((h | h) | h) | h <;> subst h <;> decide

theorem trimStart_of_allBlank {cs : List Char} (h : allBlank cs = true) :
    trimStart isBlank cs = [] := by
  induction cs with
  | nil => rfl
  | cons c cs ih =>
    simp only [allBlank, List.all_cons, Bool.and_eq_true] at h
    simp only [trimStart, List.dropWhile_cons, h.1, if_true]
    exact ih h.2

theorem trim_of_allBlank {cs : List Char} (h : allBlank cs = true) : trim cs = [] := by
  rw [trim, trimBy, trimStart_of_allBlank h, trimEnd]

end Stencil.Text
