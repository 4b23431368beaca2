/-
# Values

The data that templates are filled with: the kinds of data that JSON knows,
with integers of any size apart from fractional numbers, and besides them
fixed sequences, dates and moments, and things of a kind that templates know
nothing about except how they are written. A text in which halves of characters
stand alone is kept apart from the other texts.

Key definitions: `Value`, `Value.typeName`, `Value.truthy`, `Value.items?`,
`Value.toFloat`, `Value.equals`, `Value.hasLong`, `Value.ofPoints`.
-/
import Stencil.Calendar.DateTime
import Stencil.Number.Integer
import Stencil.Table
import Stencil.Text.CodePoint

namespace Stencil

inductive Value where
  | null
  | bool (b : Bool)
  | int (n : Int)
  | float (x : Binary64)
  | str (s : String)
  /-- A text with at least one half of a character. -/
  | points (ps : List CodePoint)
  | list (items : List Value)
  /-- A sequence that cannot grow. -/
  | tuple (items : List Value)
  /-- Names with their values in the order of insertion. -/
  | object (fields : List (String × Value))
  /-- Something of an unknown kind, known by its text. -/
  | foreign (text : String)
  | date (d : Date)
  | moment (t : DateTime)
  deriving Repr, Inhabited

namespace Value

/-- The most characters that a text, and the most items that a sequence, has room for. -/
def sizeLimit : Nat := Number.twoTo 28

/-- The text with some code points. -/
def ofPoints (ps : List CodePoint) : Value :=
  match CodePoint.chars? ps with
  | some cs => str (String.ofList cs)
  | none => points ps

@[simp] theorem ofPoints_map_char (cs : List Char) : ofPoints (cs.map .char) = str (String.ofList cs) := by
  rw [ofPoints, CodePoint.chars?_map_char]

/-- The text with some code points is one of characters, unless there are halves among them. -/
theorem ofPoints_cases (ps : List CodePoint) :
    (∃ s : String, ofPoints ps = str s ∧ s.toList.map .char = ps) ∨ ofPoints ps = points ps := by
  rw [ofPoints]
  cases made : CodePoint.chars? ps with
  | none => exact .inr rfl
  | some cs => exact .inl ⟨String.ofList cs, rfl, by
      rw [String.toList_ofList, CodePoint.eq_map_of_chars? made]⟩

theorem ofPoints_injective {ps qs : List CodePoint} (h : ofPoints ps = ofPoints qs) : ps = qs := by
  rcases ofPoints_cases ps with ⟨s, first, rfl⟩ | first <;>
    rcases ofPoints_cases qs with ⟨t, second, rfl⟩ | second <;> rw [first, second] at h
  · rw [str.inj h]
  · cases h
  · cases h
  · exact points.inj h

/-- The name of the kind of a value, as messages give it. -/
def typeName : Value → String
  | null => "NoneType"
  | bool _ => "bool"
  | int _ => "int"
  | float _ => "float"
  | str _ => "str"
  | points _ => "str"
  | list _ => "list"
  | tuple _ => "tuple"
  | object _ => "dict"
  | foreign _ => "Opaque"
  | date _ => "date"
  | moment _ => "datetime"

/-- The items of a sequence. -/
def items? : Value → Option (List Value)
  | list items => some items
  | tuple items => some items
  | _ => none

def isSequence (v : Value) : Bool :=
  v.items?.isSome

/-- An integer or a fractional number; truth values are none. -/
def isNumber : Value → Bool
  | int _ => true
  | float _ => true
  | _ => false

/-- Whether a condition on the value alone holds: text, sequences and objects that are not empty
and numbers other than zero do, things of unknown kinds do not. -/
def truthy : Value → Bool
  | bool b => b
  | str s => !s.isEmpty
  | points _ => true
  | int n => n ≠ 0
  | float x => !x.isZero
  | list items => !items.isEmpty
  | tuple items => !items.isEmpty
  | object fields => !fields.isEmpty
  | _ => false

/-- Only texts, integers and truth values can be equal, and only to their own kind. -/
def equals : Value → Value → Bool
  | str a, str b => a = b
  | points a, points b => a = b
  | int a, int b => a = b
  | bool a, bool b => a = b
  | _, _ => false

/-- The number that order comparisons see: zero for what is no number. -/
def toFloat : Value → Binary64
  | int n => Binary64.ofInt n
  | float x => x
  | _ => Binary64.zero false

mutual

/-- Whether an integer somewhere in a value has more digits than a numeral may have. -/
def hasLong : Value → Bool
  | int n => Number.isLong n
  | list items => anyLong items
  | tuple items => anyLong items
  | object fields => anyLongField fields
  | _ => false

def anyLong : List Value → Bool
  | [] => false
  | v :: vs => hasLong v || anyLong vs

def anyLongField : List (String × Value) → Bool
  | [] => false
  | f :: fs => isLongField f || anyLongField fs

def isLongField : String × Value → Bool
  | (_, v) => hasLong v

end

end Value

end Stencil
