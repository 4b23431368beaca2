/-
# Filters for sequences and objects

A text is a sequence of its characters here. A slice is given by a start, which
counts from the end if it is negative, and perhaps a length.

Key definitions: `Filter.slice`, `Filter.window`, `Filter.join`,
`Filter.default`.
-/
import Stencil.Filter.Basic
import Stencil.Number.Integer

namespace Stencil.Filter

/-- The number of characters, items or fields; zero for what has none. -/
def lengthOf : Value → Nat
  | .str s => s.length
  | .list items => items.length
  | .tuple items => items.length
  | .object fields => fields.length
  | _ => 0

def length : Filter := fun v _ => .ok (.int (lengthOf v))

def reverse : Filter
  | .str s, _ => .ok (.str (String.ofList s.toList.reverse))
  | .list items, _ => .ok (.list items.reverse)
  | .tuple items, _ => .ok (.list items.reverse)
  | v, _ => .ok v

/-- A character as a text of its own. -/
def single (c : Char) : Value :=
  .str (String.ofList [c])

def first : Filter
  | .str s, _ => .ok ((s.toList.head?.map single).getD .null)
  | .list items, _ => .ok (items.head?.getD .null)
  | .tuple items, _ => .ok (items.head?.getD .null)
  | .object fields, _ => .ok ((fields.head?.map (·.2)).getD .null)
  | v, _ => .ok v

def last : Filter
  | .str s, _ => .ok ((s.toList.getLast?.map single).getD .null)
  | .list items, _ => .ok (items.getLast?.getD .null)
  | .tuple items, _ => .ok (items.getLast?.getD .null)
  | .object fields, _ => .ok ((fields.getLast?.map (·.2)).getD .null)
  | v, _ => .ok v

/-- A position counted from the end if it is negative, brought into the bounds of a length. -/
def position (length : Nat) (i : Int) : Nat :=
  if i < 0 then (i + length).toNat else min i.toNat length

/-- The items from one position up to another; none is the end. -/
def window {α : Type} (items : List α) (start : Int) (stop : Option Int) : List α :=
  let low := position items.length start
  let high :=
    match stop with
    | some i => position items.length i
    | none => items.length
  (items.drop low).take (high - low)

/-- Start and length, unless the argument is not made of integers. -/
def sliceBounds? (argument : List Char) : Option (Int × Option Int) :=
  let (start, rest) := Text.cut ',' argument
  let length := Text.trim (rest.getD [])
  match Number.parse? start with
  | some i =>
    if length.isEmpty then some (i, none)
    else (Number.parse? length).map fun n => (i, some n)
  | none => none

/-- Where a slice stops. One that starts before the end and reaches it has no stop: counted from
the end it would be the beginning. -/
def sliceStop (start : Int) : Option Int → Option Int
  | some length => if start < 0 ∧ 0 ≤ start + length then none else some (start + length)
  | none => none

def slice : Filter := fun v argument =>
  match (given argument).bind sliceBounds? with
  | none => .ok v
  | some (start, length) =>
    let stop := sliceStop start length
    match v with
    | .str s => .ok (.str (String.ofList (window s.toList start stop)))
    | .points ps => .ok (.ofPoints (window ps start stop))
    | .list items => .ok (.list (window items start stop))
    | .tuple items => .ok (.list (window items start stop))
    | v => .ok v

/-- An item as it is printed. Halves of characters within sequences and objects are written
through stand-ins. -/
def itemPoints : Value → List CodePoint
  | .points ps => ps
  | v =>
    if v.halves.isEmpty then v.output.toList.map .char
    else
      let s := v.standIns []
      (v.hide s).output.toList.map s.restore

/-- The items as they are printed, with the argument between neighbours. -/
def join : Filter := fun v argument =>
  match v.items? with
  | some items =>
    v.unlessLong (.ofPoints
      (Text.joinWith ((argument.getD "").toList.map .char) (items.map itemPoints)))
  | none => .ok v

/-- The numbers of the items of a sequence. -/
def positions (count : Nat) : Value :=
  .list ((List.range count).map fun (i : Nat) => .int i)

def keys : Filter
  | .object fields, _ => .ok (.list (fields.map fun f => .str f.1))
  | .list items, _ => .ok (positions items.length)
  | .tuple items, _ => .ok (positions items.length)
  | v, _ => .ok v

def values : Filter
  | .object fields, _ => .ok (.list (fields.map (·.2)))
  | .tuple items, _ => .ok (.list items)
  | v, _ => .ok v

/-- Nothing, and text, sequences and objects without content. -/
def isVoid : Value → Bool
  | .null => true
  | .str s => s.isEmpty
  | .list items => items.isEmpty
  | .tuple items => items.isEmpty
  | .object fields => fields.isEmpty
  | _ => false

/-- The argument in place of a void value. -/
def default : Filter := fun v argument =>
  if isVoid v then .ok (.str (argument.getD "")) else .ok v

def jsonEncode : Filter := fun v _ => v.unlessLong (.str (v.json .compact))

end Stencil.Filter
