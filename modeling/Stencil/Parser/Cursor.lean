/-
# Reading tokens one by one

A cursor stands in a row of tokens and knows where the lexer stands. Reading
moves both; looking ahead moves neither. The first failure ends everything, and
it is kept together with the place where the lexer was left.

Key definitions: `Cursor`, `Halt`, `Parse`, `Parse.read`, `Parse.next`,
`Parse.peek`, `Parse.expect`.
-/
import Stencil.Lexer

namespace Stencil

/-- A lexer and the tokens that it will give. -/
structure Cursor where
  here : Lexer
  ahead : Scan
  /-- How many tokens there are before the end or the failure. -/
  size : Nat
  size_eq : size = ahead.size

namespace Cursor

def ofLexer (s : Lexer) : Cursor :=
  let ahead := s.scan
  ⟨s, ahead, ahead.size, rfl⟩

/-- Cursors are equal if they stand at one place with the same tokens ahead. -/
theorem eq_of_ahead {c d : Cursor} (here : c.here = d.here) (ahead : c.ahead = d.ahead) : c = d := by
  cases c with
  | mk _ _ _ h =>
    cases d with
    | mk _ _ _ k =>
      subst here ahead h k
      rfl

end Cursor

/-- A failure and where the lexer was left. -/
structure Halt where
  failure : Failure
  left : Lexer
  deriving Repr

/-- A reader of tokens. -/
abbrev Parse (α : Type) := StateT Cursor (Except Halt) α

namespace Parse

/-- Fails where the lexer stands. -/
def fail {α : Type} (cause : Cause) (line : Nat) : Parse α :=
  fun c => .error ⟨Failure.onLine cause line, c.here⟩

/-- Stops with a fault where the lexer stands. -/
def fault {α : Type} (f : Fault) : Parse α :=
  fun c => .error ⟨.fault f, c.here⟩

/-- The next token, which may be the end. -/
def read : Parse Token := fun c =>
  match h : c.ahead with
  | .token t after rest => .ok (t, ⟨after, rest, c.size - 1, by simp [c.size_eq, h, Scan.size]⟩)
  | .finish t after => .ok (t, ⟨after, .finish t after, 0, rfl⟩)
  | .broken failure after => .error ⟨failure, after⟩

/-- The next token, which may be the end, without moving. -/
def peek : Parse Token := fun c =>
  match c.ahead with
  | .token t _ _ => .ok (t, c)
  | .finish t _ => .ok (t, c)
  | .broken failure _ => .error ⟨failure, c.here⟩

/-- The next token of an open tag. -/
def next : Parse Token := do
  let t ← read
  if t.kind = .eof then fail .unclosedTag t.line else pure t

/-- A token of one kind. -/
def expect (kind : TokenKind) (want : Want) : Parse Token := do
  let t ← next
  if t.kind = kind then pure t else fail (.wanted want t) t.line

/-- An operator. -/
def expectOperator (symbol : String) (want : Want) : Parse Unit := do
  let t ← next
  if t.isOperator symbol then pure () else fail (.wanted want t) t.line

def expectTagEnd : Parse Unit := do
  let _ ← expect .tagEnd .tagEnd

/-- The text of an identifier. -/
def identifier : Parse String := do
  let t ← expect .identifier .identifier
  pure t.value

/-- The text of a string. -/
def string : Parse String := do
  let t ← expect .string .string
  pure t.value

/-- Whether the next token is of a kind. -/
def sees (kind : TokenKind) : Parse Bool := do
  let t ← peek
  pure (t.kind = kind)

/-- Whether the next token is an operator. -/
def seesOperator (symbol : String) : Parse Bool := do
  let t ← peek
  pure (t.isOperator symbol)

/-- A repetition that reads at least one token each time: it is given one turn more than there
are tokens. -/
def repeating {α : Type} (p : Nat → Parse α) : Parse α :=
  fun c => p (c.size + 1) c

/-- What is left when all turns are used up: the source ends here. -/
def exhausted {α : Type} : Parse α :=
  fun c => fail .unclosedTag c.here.line c

end Parse

end Stencil
