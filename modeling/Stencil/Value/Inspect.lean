/-
# Values as listings show them

A listing shows text in quotes, so that it tells a text from a number and an
empty text from nothing, and names the kinds of data that have no sign of their
own. A text by itself is shown without quotes.

Key definitions: `Value.inspect`, `Value.plain`.
-/
import Stencil.Number.Shortest
import Stencil.Text.Quoted
import Stencil.Value.Basic

namespace Stencil

namespace Value

open Number

/-- Arguments in parentheses. -/
def callText (head : String) (arguments : List (List Char)) : List Char :=
  head.toList ++ '(' :: (arguments.intersperse [',', ' ']).flatten ++ [')']

/-- A span of time as days, seconds and microseconds, where zeros are left out and only the days
may be negative. -/
def spanText (micros : Int) : List Char :=
  let days := micros / 86400000000
  let rest := micros % 86400000000
  let parts := [("days=", days), ("seconds=", rest / 1000000), ("microseconds=", rest % 1000000)]
  let shown := parts.filterMap fun p => if p.2 = 0 then none else some (p.1.toList ++ ofInt p.2)
  callText "datetime.timedelta" (if shown.isEmpty then [['0']] else shown)

/-- The clock of a moment. -/
def zoneText (offset : Int) : List Char :=
  if offset = 0 then "datetime.timezone.utc".toList
  else callText "datetime.timezone" [spanText offset]

def dateText (d : Date) : List Char :=
  callText "datetime.date" [ofNat d.year, ofNat d.month, ofNat d.day]

/-- A moment by its parts; seconds and microseconds are left out if they are zero. -/
def momentText (t : DateTime) : List Char :=
  let seconds :=
    if t.microsecond ≠ 0 then [ofNat t.second, ofNat t.microsecond]
    else if t.second ≠ 0 then [ofNat t.second]
    else []
  let zone :=
    match t.offset with
    | some offset => ["tzinfo=".toList ++ zoneText offset]
    | none => []
  callText "datetime.datetime"
    ([ofNat t.date.year, ofNat t.date.month, ofNat t.date.day, ofNat t.hour, ofNat t.minute] ++
      seconds ++ zone)

mutual

/-- A value as part of a listing. -/
def inspectText : Value → List Char
  | null => "None".toList
  | bool b => (if b then "True" else "False").toList
  | int n => ofInt n
  | float x => floatText x
  | str s => (Text.quote s).toList
  | points ps => Text.quotePoints ps
  | list items => '[' :: inspectItems items ++ [']']
  | tuple [] => "()".toList
  | tuple [v] => '(' :: inspectText v ++ [',', ')']
  | tuple (v :: w :: vs) => '(' :: inspectItems (v :: w :: vs) ++ [')']
  | object fields => '\x7b' :: inspectFields fields ++ ['\x7d']
  | foreign text => text.toList
  | date d => dateText d
  | moment t => momentText t

/-- Items with commas between them. -/
def inspectItems : List Value → List Char
  | [] => []
  | [v] => inspectText v
  | v :: w :: vs => inspectText v ++ ',' :: ' ' :: inspectItems (w :: vs)

/-- A name with its value. -/
def inspectField : String × Value → List Char
  | (name, v) => (Text.quote name).toList ++ ':' :: ' ' :: inspectText v

/-- Fields with commas between them. -/
def inspectFields : List (String × Value) → List Char
  | [] => []
  | [field] => inspectField field
  | field :: next :: fields =>
    inspectField field ++ ',' :: ' ' :: inspectFields (next :: fields)

end

/-- A value as part of a listing. -/
def inspect (v : Value) : String :=
  String.ofList (inspectText v)

/-- A value by itself: text without quotes, dates in their usual form. -/
def plain : Value → String
  | str s => s
  | points ps => String.ofList (ps.map CodePoint.shown)
  | date d => String.ofList d.isoText
  | moment t => String.ofList (t.isoText ' ')
  | v => v.inspect

end Value

end Stencil
