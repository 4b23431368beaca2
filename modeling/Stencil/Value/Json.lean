/-
# Values as JSON

Values are written either on one line without spaces, or one item a line with
an indentation. Text keeps its characters; only quotes, backslashes and control
characters are escaped. Dates, moments and foreign things become strings.

Key definitions: `Json.Layout`, `Value.json`.
-/
import Stencil.Number.Shortest
import Stencil.Text.Quoted
import Stencil.Value.Basic

namespace Stencil

namespace Json

/-- On one line, or on lines with some spaces for each level. -/
inductive Layout where
  | compact
  | lines (width : Nat)
  deriving DecidableEq, Repr

/-- The start of a new line at a level. -/
def Layout.newline (layout : Layout) (level : Nat) : List Char :=
  match layout with
  | .compact => []
  | .lines width => '\n' :: List.replicate (width * level) ' '

/-- What separates a name from its value. -/
def Layout.colon : Layout → List Char
  | .compact => [':']
  | .lines _ => [':', ' ']

/-- A character inside a string. -/
def escapeChar (c : Char) : List Char :=
  if c = '"' ∨ c = '\\' then ['\\', c]
  else if c = '\n' then ['\\', 'n']
  else if c = '\r' then ['\\', 'r']
  else if c = '\t' then ['\\', 't']
  else if c = '\x08' then ['\\', 'b']
  else if c = '\x0c' then ['\\', 'f']
  else if c.toNat < 0x20 then '\\' :: 'u' :: Text.hexPadded 4 c.toNat
  else [c]

def string (s : String) : List Char :=
  '"' :: s.toList.flatMap escapeChar ++ ['"']

/-- A number; the ones that JSON lacks have names. -/
def float : Binary64 → List Char
  | .nan => "NaN".toList
  | .infinite negative => (if negative then "-Infinity" else "Infinity").toList
  | x => Number.floatText x

end Json

namespace Value

open Json

mutual

/-- A value at a level of nesting. -/
def jsonAt (layout : Layout) (level : Nat) : Value → List Char
  | null => "null".toList
  | bool b => (if b then "true" else "false").toList
  | int n => Number.ofInt n
  | float x => Json.float x
  | str s => Json.string s
  | points ps => Json.string (String.ofList (ps.map CodePoint.shown))
  | list items => jsonItems layout level items
  | tuple items => jsonItems layout level items
  | object [] => "\x7b\x7d".toList
  | object (field :: fields) =>
    '\x7b' :: layout.newline (level + 1) ++ jsonField layout (level + 1) field ++
      jsonFields layout (level + 1) fields ++ layout.newline level ++ ['\x7d']
  | foreign text => Json.string text
  | date d => Json.string (String.ofList d.isoText)
  | moment t => Json.string (String.ofList (t.isoText ' '))

/-- A sequence in brackets. -/
def jsonItems (layout : Layout) (level : Nat) : List Value → List Char
  | [] => "[]".toList
  | v :: vs =>
    '[' :: layout.newline (level + 1) ++ jsonAt layout (level + 1) v ++
      jsonRest layout (level + 1) vs ++ layout.newline level ++ [']']

/-- Further items of a sequence, each after a comma. -/
def jsonRest (layout : Layout) (level : Nat) : List Value → List Char
  | [] => []
  | v :: vs => ',' :: layout.newline level ++ jsonAt layout level v ++ jsonRest layout level vs

/-- A name with its value. -/
def jsonField (layout : Layout) (level : Nat) : String × Value → List Char
  | (name, v) => Json.string name ++ layout.colon ++ jsonAt layout level v

/-- Further fields of an object, each after a comma. -/
def jsonFields (layout : Layout) (level : Nat) : List (String × Value) → List Char
  | [] => []
  | field :: fields =>
    ',' :: layout.newline level ++ jsonField layout level field ++ jsonFields layout level fields

end

/-- A value as JSON text. -/
def json (layout : Layout) (v : Value) : String :=
  String.ofList (jsonAt layout 0 v)

end Value

end Stencil
