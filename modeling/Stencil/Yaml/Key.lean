/-
# Keys of mappings

A key is a scalar or a fixed sequence of scalars. Numbers are the same key if
they are equal, and so are one and true, zero and false.

Keys of one kind have an order: numbers by their size, texts character by
character, dates and moments by time, sequences by the first place where they
differ. There is none between keys of different kinds.

Key definitions: `Key.same`, `Key.compare?`, `Key.sort?`.
-/
import Stencil.Value.Basic

namespace Stencil.Key

/-- The number that a key is, in units of `2 ^ -1074`; true is one and false is zero. -/
def finite? : Value → Option Int
  | .bool b => some (if b then Number.twoTo 1074 else 0)
  | .int n => some (n * Number.twoTo 1074)
  | .float x => if x.isFinite then some x.scaled else none
  | _ => none

/-- The place of a number among all: on one of the sides of the finite numbers, or among them. -/
def rank? : Value → Option (Int × Int)
  | .float .nan => some (2, 0)
  | .float (.infinite negative) => some (if negative then -1 else 1, 0)
  | v => (finite? v).map fun n => (0, n)

mutual

/-- Whether two keys are the same. -/
def same : Value → Value → Bool
  | .null, .null => true
  | .str s, .str t => s = t
  | .date d, .date e => d = e
  | .moment t, .moment u => t = u
  | .tuple vs, .tuple ws => sameItems vs ws
  | a, b => (rank? a).isSome && rank? a = rank? b

def sameItems : List Value → List Value → Bool
  | [], [] => true
  | v :: vs, w :: ws => same v w && sameItems vs ws
  | _, _ => false

end

/-- Whether one pair of numbers comes before another: the first numbers count more. -/
def comparePairs (a b : Int × Int) : Ordering :=
  (compare a.1 b.1).then (compare a.2 b.2)

mutual

/-- The order of two keys, if there is one between them. -/
def compare? : Value → Value → Option Ordering
  | .str s, .str t => some (compare s t)
  | .date d, .date e => some (compare d.dayNumber e.dayNumber)
  | .moment t, .moment u =>
    some (comparePairs (t.clockSeconds, t.microsecond) (u.clockSeconds, u.microsecond))
  | .tuple vs, .tuple ws => compareItems? vs ws
  | a, b => do some (comparePairs (← rank? a) (← rank? b))

def compareItems? : List Value → List Value → Option Ordering
  | [], [] => some .eq
  | [], _ :: _ => some .lt
  | _ :: _, [] => some .gt
  | v :: vs, w :: ws => if same v w then compareItems? vs ws else compare? v w

end

/-- Whether all keys have an order among them. -/
def comparable : List Value → Bool
  | [] => true
  | v :: vs => vs.all (fun w => (compare? v w).isSome) && comparable vs

/-- Keys in order, if they have one. A single key is always in order. -/
def sort? (keys : List Value) : Option (List Value) :=
  if comparable keys then some (keys.mergeSort fun v w => compare? v w ≠ some .gt) else none

end Stencil.Key
