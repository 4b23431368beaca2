/-
# Documents

A document is a tree of scalars, lists and mappings whose scalars have become
values. It is seen from its root down to some depth: lists and mappings that lie
as deep as that are seen without their contents.

Key definitions: `Document`, `Document.typeName`, `Document.ofValue`,
`Document.outline`, `Document.parse`.
-/
import Stencil.Yaml.Contents
import Stencil.Yaml.Reader

namespace Stencil

inductive Document where
  | scalar (v : Value)
  | list (items : List Document)
  | mapping (entries : List (Value × Document))
  deriving Inhabited

namespace Document

/-- The name of the kind of a document, as messages give it. -/
def typeName : Document → String
  | scalar v => v.typeName
  | list _ => "list"
  | mapping _ => "dict"

/-- Nothing, false, zero or without contents. -/
def isVoid : Document → Bool
  | scalar .null => true
  | scalar (.bool b) => !b
  | scalar (.int n) => n = 0
  | scalar (.float x) => x.isZero
  | scalar (.str s) => s.isEmpty
  | scalar _ => false
  | list items => items.isEmpty
  | mapping entries => entries.isEmpty

mutual

/-- A value as a document. -/
def ofValue : Value → Document
  | .list items => list (ofValues items)
  | .object fields => mapping (ofFields fields)
  | v => scalar v

def ofValues : List Value → List Document
  | [] => []
  | v :: vs => ofValue v :: ofValues vs

def ofField : String × Value → Value × Document
  | (name, v) => (.str name, ofValue v)

def ofFields : List (String × Value) → List (Value × Document)
  | [] => []
  | f :: fs => ofField f :: ofFields fs

end

open Yaml (Contents Problem)

/-- The documents that nodes stand for, down to some depth. -/
def outline (contents : Array (Option Contents)) : Nat → Array Document
  | 0 => contents.map fun c => match c with
    | some (.scalar v) => scalar v
    | some (.list _) => list []
    | some (.mapping _) => mapping []
    | none => scalar .null
  | depth + 1 =>
    let below := outline contents depth
    let look (i : Nat) : Document := below.getD i (scalar .null)
    contents.map fun c => match c with
      | some (.scalar v) => scalar v
      | some (.list items) => list (items.map look)
      | some (.mapping entries) => mapping (entries.map fun e => (e.1, look e.2))
      | none => scalar .null

/-- The document that a text holds, down to some depth; without a node it is nothing. -/
def parse (depth : Nat) (s : String) : Except Problem Document :=
  match Yaml.read? s with
  | none => .error .malformed
  | some none => .ok (scalar .null)
  | some (some g) => do
    let contents ← g.contents
    pure ((outline contents depth).getD g.root (scalar .null))

end Document

end Stencil
