/-
# Values made of whole characters

Most work on texts is made for characters. A value with halves of characters in
it is worked on with stand-ins for them, which are chosen so that they occur
neither in the value nor in a text that the work brings in; in the result the
stand-ins are halves again.

Key definitions: `Value.halves`, `Value.hide`, `Value.restore`,
`Value.throughStandIns`.
-/
import Stencil.Error
import Stencil.Value.Basic

namespace Stencil.Value

mutual

/-- The code points of all texts in a value. -/
def codePoints : Value → List CodePoint
  | str s => s.toList.map .char
  | points ps => ps
  | list items => codePointsOf items
  | tuple items => codePointsOf items
  | object fields => fieldPoints fields
  | _ => []

def codePointsOf : List Value → List CodePoint
  | [] => []
  | v :: vs => codePoints v ++ codePointsOf vs

def fieldPoints : List (String × Value) → List CodePoint
  | [] => []
  | f :: fs => namedPoints f ++ fieldPoints fs

def namedPoints : String × Value → List CodePoint
  | (name, v) => name.toList.map .char ++ codePoints v

end

mutual

/-- A value with other texts in it; names in objects stay. -/
def mapTexts (f : Value → Value) : Value → Value
  | list items => list (mapTextsOf f items)
  | tuple items => tuple (mapTextsOf f items)
  | object fields => object (mapFields f fields)
  | v => f v

def mapTextsOf (f : Value → Value) : List Value → List Value
  | [] => []
  | v :: vs => mapTexts f v :: mapTextsOf f vs

def mapFields (f : Value → Value) : List (String × Value) → List (String × Value)
  | [] => []
  | p :: ps => mapField f p :: mapFields f ps

def mapField (f : Value → Value) : String × Value → String × Value
  | (name, v) => (name, mapTexts f v)

end

/-- The halves of characters in a value. -/
def halves (v : Value) : List (Fin 2048) :=
  v.codePoints.filterMap CodePoint.half?

/-- A value with stand-ins for the halves in it. -/
def hide (s : StandIns) : Value → Value :=
  mapTexts fun v => match v with
    | points ps => str (String.ofList (ps.map s.hide))
    | v => v

/-- A value with halves where stand-ins are. -/
def restore (s : StandIns) : Value → Value :=
  mapTexts fun v => match v with
    | str t => ofPoints (t.toList.map s.restore)
    | v => v

/-- Stand-ins for the halves in a value that are kept apart from the characters in it and in a
text nearby. -/
def standIns (v : Value) (near : List Char) : StandIns :=
  .choose v.halves (near ++ v.codePoints.filterMap CodePoint.char?)

/-- The outcome of some work on a value that is made for characters. -/
def throughStandIns (v : Value) (near : List Char) (work : Value → Except Failure Value) :
    Except Failure Value :=
  if v.halves.isEmpty then work v
  else
    let s := v.standIns near
    (work (v.hide s)).map (restore s)

end Stencil.Value
