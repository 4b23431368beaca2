/-
# What lies outside a template

The time of day and numbers drawn by chance do not come from a template or its
data. They are handed in, so that the same surroundings give the same page.

Key definitions: `Surroundings`.
-/
import Stencil.Calendar.DateTime

namespace Stencil

structure Surroundings where
  /-- The present moment. -/
  now : DateTime
  /-- A number between two others, the ends included. -/
  draw : (low high : Int) → Int

namespace Surroundings

/-- The start of 1970, and always the lowest number. -/
def still : Surroundings :=
  ⟨⟨⟨1970, 1, 1⟩, 0, 0, 0, 0, some 0⟩, fun low _ => low⟩

end Surroundings

end Stencil
