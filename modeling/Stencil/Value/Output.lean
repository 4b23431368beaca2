/-
# Values in the text of a page

What a template prints for a value: nothing for null, text as it is, numbers in
their usual form, and JSON on one line for sequences and objects. An integer
that is too long for a numeral cannot be written, wherever it stands in a value.

Key definitions: `Value.output`, `Value.print`, `Value.unlessLong`.
-/
import Stencil.Error
import Stencil.Value.Inspect
import Stencil.Value.Json

namespace Stencil.Value

/-- The text that stands for a value on a page. -/
def output : Value → String
  | null => ""
  | bool b => if b then "true" else "false"
  | str s => s
  | list items => (list items).json .compact
  | tuple items => (tuple items).json .compact
  | object fields => (object fields).json .compact
  | v => v.plain

/-- What is made of the text of a value, unless an integer in it is too long to be written. -/
def unlessLong {α : Type} (v : Value) (made : α) : Except Failure α :=
  if v.hasLong then .error (.fault .integerTooLong) else .ok made

/-- The text of a value on a page, if it can be written. -/
def print (v : Value) : Except Failure String :=
  v.unlessLong v.output

end Stencil.Value
