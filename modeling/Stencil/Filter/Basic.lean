/-
# Filters

A filter makes a value out of a value, with a text as its argument if one was
given. Filters are lenient: a name that no table has, or a value of a kind that
a filter does not know, leaves the value as it is.

Key definitions: `Filter`, `Filter.apply`.
-/
import Stencil.Syntax
import Stencil.Value.Output
import Stencil.Value.Whole

namespace Stencil

/-- A function on values with an optional text as its argument. -/
abbrev Filter := Value → Option String → Except Failure Value

namespace Filter

/-- The argument, where an empty one counts as none. -/
def given (argument : Option String) : Option (List Char) :=
  match argument with
  | some s => if s.isEmpty then none else some s.toList
  | none => none

/-- A filter that is made for characters, on any text. -/
def onPoints (filter : Filter) : Filter := fun v argument =>
  match v with
  | .points _ => v.throughStandIns (argument.getD "").toList fun w => filter w argument
  | v => filter v argument

/-- A filter that is made for characters, on values with any texts in them. -/
def onAllPoints (filter : Filter) : Filter := fun v argument =>
  v.throughStandIns (argument.getD "").toList fun w => filter w argument

/-- A change of texts; other values stay as they are. -/
def onText (f : List Char → List Char) : Filter
  | .str s, _ => .ok (.str (String.ofList (f s.toList)))
  | v, _ => .ok v

/-- A change of texts that takes halves of characters as they come; other values stay as they are. -/
def onCodePoints (f : List CodePoint → List CodePoint) : Filter
  | .str s, _ => .ok (.ofPoints (f (s.toList.map .char)))
  | .points ps, _ => .ok (.ofPoints (f ps))
  | v, _ => .ok v

/-- The filter of a table that a tag asks for, or none. -/
def apply (filters : Table Filter) (v : Value) (f : FilterSpec) : Except Failure Value :=
  match Table.find? f.name filters with
  | some filter => filter v f.argument
  | none => .ok v

end Filter

end Stencil
