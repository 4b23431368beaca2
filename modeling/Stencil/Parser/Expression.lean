/-
# Expressions

An expression is a literal, a path, or a call with expressions for arguments,
and may end in a filter. The argument of a filter is a word, a string or a
number, with a minus sign if need be.

Key definitions: `Parse.numeral`, `Parse.filterSpec`, `Parse.primary`,
`Parse.expression`, `Parse.condition`.
-/
import Stencil.Parser.Cursor
import Stencil.Syntax
import Stencil.Number.Numeral

namespace Stencil.Parse

/-- The value of a numeral: fractional if it has a point, else an integer. -/
def numeral (text : String) : Parse Value :=
  if text.toList.contains '.' then
    pure (.float ((Number.readFloat? text).getD .nan))
  else
    match Number.parse? text.toList with
    | some n => pure (.int n)
    | none => fault .integerTooLong

/-- A number with its sign changed. -/
def negate : Value → Value
  | .int n => .int (-n)
  | .float x => .float x.neg
  | v => v

/-- The numeral after a minus sign that has been read. -/
def negated : Parse Value := do
  let t ← next
  let v ← numeral t.value
  pure (negate v)

/-- Whether a minus sign was read and a numeral follows. -/
def isMinus (t : Token) : Parse Bool :=
  if t.isOperator "-" then sees .number else pure false

/-- A filter after its bar. -/
def filterSpec : Parse FilterSpec := do
  let name ← identifier
  if ← seesOperator ":" then
    let _ ← next
    let t ← next
    if ← isMinus t then
      let n ← next
      pure ⟨name, some ("-" ++ n.value)⟩
    else if t.kind = .string ∨ t.kind = .number ∨ t.kind = .identifier then
      pure ⟨name, some t.value⟩
    else fail (.wanted .literal t) t.line
  else pure ⟨name, none⟩

/-- The value of a word that stands for a constant. -/
def constant? : String → Option Value
  | "true" => some (.bool true)
  | "false" => some (.bool false)
  | "null" => some .null
  | _ => none

/-- An expression without a filter; `arguments` reads what follows an opening parenthesis. -/
def primaryWith (arguments : Parse (List Expr)) : Parse Expr := do
  let t ← next
  match t.kind with
  | .string => pure (.literal (.str t.value))
  | .number => do
    let v ← numeral t.value
    pure (.literal v)
  | .identifier =>
    match constant? t.value with
    | some v => pure (.literal v)
    | none => do
      if ← seesOperator "(" then
        let _ ← next
        let args ← arguments
        pure (.call t.value args)
      else pure (.path t.value)
  | _ => do
    if ← isMinus t then
      let v ← negated
      pure (.literal v)
    else fail (.wanted .primary t) t.line

/-- A filter, if there is a bar. -/
def filter? : Parse (Option FilterSpec) := do
  if ← sees .pipe then
    let _ ← next
    let f ← filterSpec
    pure (some f)
  else pure none

/-- An expression; `arguments` reads what follows an opening parenthesis. -/
def expressionWith (arguments : Parse (List Expr)) : Parse Expr := do
  let e ← primaryWith arguments
  match ← filter? with
  | some f => pure (.filtered e f)
  | none => pure e

/-- Whether a separator was a comma; a closing parenthesis is the other one there is. -/
def separator : Parse Bool := do
  let t ← next
  if t.isOperator ")" then pure false
  else if t.isOperator "," then pure true
  else fail (.wanted .separator t) t.line

/-- At least one argument, and the closing parenthesis. -/
def someArguments : (argumentsInside : Parse (List Expr)) → Nat → Parse (List Expr)
  | _, 0 => exhausted
  | inside, turns + 1 => do
    let e ← expressionWith inside
    if ← separator then
      let es ← someArguments inside turns
      pure (e :: es)
    else pure [e]

/-- The arguments of a call and its closing parenthesis, with calls nested in them. -/
def argumentsUpTo : Nat → Parse (List Expr)
  | 0 => exhausted
  | depth + 1 => do
    if ← seesOperator ")" then
      let _ ← next
      pure []
    else repeating (someArguments (argumentsUpTo depth))

def arguments : Parse (List Expr) :=
  repeating argumentsUpTo

/-- An expression without a filter. -/
def primary : Parse Expr :=
  primaryWith arguments

/-- An expression. -/
def expression : Parse Expr :=
  expressionWith arguments

/-- The right side of a comparison. -/
def literal : Parse Value := do
  let t ← next
  match t.kind with
  | .string => pure (.str t.value)
  | .number => numeral t.value
  | .identifier =>
    match constant? t.value with
    | some v => pure v
    | none => fail (.wanted .literal t) t.line
  | _ => do
    if ← isMinus t then negated else fail (.wanted .literal t) t.line

/-- A path, alone or compared with a literal. -/
def condition : Parse Condition := do
  let path ← identifier
  if ← sees .tagEnd then pure ⟨path, none⟩
  else
    let t ← next
    if t.kind = .operator && (Comparison.ofSymbol? t.value).isSome then
      let v ← literal
      pure ⟨path, some (⟨t.value⟩, v)⟩
    else fail (.wanted .comparison t) t.line

end Stencil.Parse
