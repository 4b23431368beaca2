/-
# Comparing values

Equality holds only within a kind: text with text, integers with integers,
truth values with truth values. Order is the order of numbers; whatever is no
number counts as zero there.

Key definitions: `Comparison`, `Comparison.holds`, `Value.compare`.
-/
import Stencil.Error
import Stencil.Value.Basic

namespace Stencil

/-- The comparison operators. -/
inductive Comparison where
  | equal
  | different
  | less
  | greater
  | atMost
  | atLeast
  deriving DecidableEq, Repr

namespace Comparison

def all : List Comparison :=
  [equal, different, less, greater, atMost, atLeast]

/-- The operator as it is written. -/
def symbol : Comparison → String
  | equal => "=="
  | different => "!="
  | less => "<"
  | greater => ">"
  | atMost => "<="
  | atLeast => ">="

/-- The operator that is written so. -/
def ofSymbol? (s : String) : Option Comparison :=
  all.find? fun op => op.symbol == s

theorem ofSymbol?_symbol (op : Comparison) : ofSymbol? op.symbol = some op := by
  cases op <;> decide

/-- Whether a comparison of two values holds. -/
def holds (op : Comparison) (a b : Value) : Bool :=
  match op with
  | equal => a.equals b
  | different => !a.equals b
  | less => a.toFloat.lt b.toFloat
  | greater => b.toFloat.lt a.toFloat
  | atMost => a.toFloat.le b.toFloat
  | atLeast => b.toFloat.le a.toFloat

end Comparison

/-- A comparison by the text of its operator. -/
def Value.compare (a : Value) (op : String) (b : Value) : Except Failure Bool :=
  match Comparison.ofSymbol? op with
  | some op => .ok (op.holds a b)
  | none => .error (.of (.unsupportedOperator op))

end Stencil
