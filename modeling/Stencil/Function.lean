/-
# Functions

Templates call functions by name. A function declares how many arguments it
takes at least and at most; a registry checks the number before each call. A
name can be registered again, which replaces its function.

Key definitions: `Function`, `Registry`, `Registry.register`, `Registry.call`,
`Function.range`, `Function.extreme`, `Registry.builtins`.
-/
import Stencil.Filter.Date

namespace Stencil

structure Function where
  least : Int
  most : Int
  description : String
  run : List Value → Except Failure Value

namespace Function

/-- An error of a function. -/
def fail {α : Type} (cause : Cause) : Except Failure α :=
  .error (.of cause)

/-- A number as an integer, cut off after the point. -/
def integer (v : Value) (name : String) : Except Failure Int :=
  match v with
  | .int n => .ok n
  | .float x =>
    match x.truncate? with
    | some n => .ok n
    | none => fail (.notFinite name v.plain)
  | v => fail (.notANumber name v.typeName)

/-- The most items that can be counted. -/
def countLimit : Int := 9223372036854775807

/-- The integers from one to another, both included. -/
def range : List Value → Except Failure Value
  | [low, high] => do
    let low ← integer low "start"
    let high ← integer high "end"
    let count := high + 1 - low
    if countLimit < count then .error (.fault .uncountable)
    else if Value.sizeLimit < count then .error (.fault .outOfMemory)
    else pure (.list ((List.range count.toNat).map fun (i : Nat) => .int (low + i)))
  | _ => .ok .null

/-- The item that no later one beats; `beats` tells whether the first value is to be preferred. -/
def best (beats : Value → Value → Bool) : Value → List Value → Value
  | v, [] => v
  | v, w :: ws => best beats (if beats w v then w else v) ws

/-- The best item of a sequence; a number is its own best. -/
def extreme (beats : Value → Value → Bool) : List Value → Except Failure Value
  | [v] =>
    if v.isNumber then .ok v
    else
      match v.items? with
      | none => fail (.notAnArray v.typeName)
      | some [] => fail .emptyArray
      | some (w :: ws) => .ok (best beats w ws)
  | _ => .ok .null

def greater (v w : Value) : Bool := w.toFloat.lt v.toFloat

def less (v w : Value) : Bool := v.toFloat.lt w.toFloat

/-- The largest item as order comparisons see it, the first of several. -/
def max : List Value → Except Failure Value := extreme greater

/-- The smallest item as order comparisons see it, the first of several. -/
def min : List Value → Except Failure Value := extreme less

/-- A number by chance between two others, both included. -/
def random (world : Surroundings) : List Value → Except Failure Value
  | [low, high] => do
    let low ← integer low "min"
    let high ← integer high "max"
    if low ≤ high then pure (.int (world.draw low high))
    else if Number.isLong low || Number.isLong high then .error (.fault .integerTooLong)
    else fail (.emptyRange low high)
  | _ => .ok .null

/-- A count of seconds, or the present moment, in a format of characters. -/
def dateText (world : Surroundings) : List Value → Except Failure Value
  | .str fmt :: rest =>
    match rest with
    | [] => world.now.write fmt.toList
    | v :: _ =>
      if !v.isNumber then fail .timestampNotNumber
      else
        match v.secondsToMoment? with
        | some t => t.write fmt.toList
        | none => do fail (.timestampOutOfRange (← v.unlessLong v.plain))
  | _ => fail .formatNotText

/-- A count of seconds, or the present moment, in a format. -/
def date (world : Surroundings) (arguments : List Value) : Except Failure Value :=
  (Value.list arguments).throughStandIns [] fun v => dateText world (v.items?.getD [])

/-- The item at a position, where the sequence starts over at its end. -/
def cycle : List Value → Except Failure Value
  | [values, position] =>
    match values.items?, position with
    | none, _ => fail .valuesNotArray
    | some items, .int n =>
      if items.isEmpty then fail .emptyArray
      else .ok (items.getD (n.emod items.length).toNat .null)
    | _, _ => fail .positionNotInteger
  | _ => .ok .null

/-- The value of a named constant. -/
def constant : List Value → Except Failure Value
  | [.str name] =>
    match name with
    | "null" => .ok .null
    | "true" => .ok (.bool true)
    | "false" => .ok (.bool false)
    | _ => fail (.constantNotFound name)
  | [.points ps] => fail (.constantNotFound (Value.points ps).plain)
  | _ => fail .constantNotText

end Function

/-- Functions by name. -/
abbrev Registry := Table Function

namespace Registry

/-- Bounds that no number of arguments can meet, or that are negative. -/
structure BadBounds where
  name : String
  least : Int
  most : Int
  deriving DecidableEq, Repr

def BadBounds.message (b : BadBounds) : String :=
  "Invalid argument bounds for '" ++ b.name ++ "': " ++ toString b.least ++ ".." ++ toString b.most

/-- The registry with a function under a name. -/
def register (r : Registry) (name : String) (f : Function) : Except BadBounds Registry :=
  if f.least < 0 ∨ f.most < f.least then .error ⟨name, f.least, f.most⟩
  else .ok (Table.put name f r)

/-- The names in order. -/
def sortedNames (r : Registry) : List String :=
  sortNames (Table.names r)

/-- The function under a name, called after the number of arguments has been checked. -/
def call (r : Registry) (name : String) (arguments : List Value) : Except Failure Value :=
  match Table.find? name r with
  | none => .error (.of (.functionNotFound name))
  | some f =>
    if (arguments.length : Int) < f.least then
      .error (.of (.tooFewArguments name f.least arguments.length))
    else if f.most < arguments.length then
      .error (.of (.tooManyArguments name f.most arguments.length))
    else f.run arguments

/-- The functions that every template has. -/
def builtins (world : Surroundings) : Registry := [
  ("range", ⟨2, 2, "Inclusive integer sequence from start to end", Function.range⟩),
  ("max", ⟨1, 1, "Largest value of an array", Function.max⟩),
  ("min", ⟨1, 1, "Smallest value of an array", Function.min⟩),
  ("random", ⟨2, 2, "Random integer between min and max", Function.random world⟩),
  ("date", ⟨1, 2, "Formats a timestamp (default: now)", Function.date world⟩),
  ("cycle", ⟨2, 2, "Array element at position modulo length", Function.cycle⟩),
  ("constant", ⟨1, 1, "Value of a named constant", Function.constant⟩)]

end Registry

end Stencil
