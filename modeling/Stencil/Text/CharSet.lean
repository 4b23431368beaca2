/-
# Sets of characters

A set of code points is written as the increasing list of the code points at
which membership changes: the first bound starts the first run of members, the
second one ends it, and so on. Such a list is half as long as a list of ranges
and is walked once to decide membership.

Key definitions: `within`.
-/
namespace Stencil.Text

/-- Membership in the set that changes at each of the increasing bounds. -/
def within : List Nat → Nat → Bool
  | [], _ => false
  | b :: bs, n => if n < b then false else !within bs n

theorem within_of_lt {b n : Nat} (bs : List Nat) (h : n < b) : within (b :: bs) n = false := by
  simp [within, h]

theorem within_of_le {b n : Nat} (bs : List Nat) (h : b ≤ n) :
    within (b :: bs) n = !within bs n := by
  simp [within, Nat.not_lt.mpr h]

end Stencil.Text
