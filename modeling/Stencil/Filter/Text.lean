/-
# Filters for text

Key definitions: `Filter.trim`, `Filter.replace`, `Filter.split`.
-/
import Stencil.Filter.Basic
import Stencil.Text.Cases

namespace Stencil.Filter

def upper : Filter := onText Text.toUpper

def lower : Filter := onText Text.toLower

def capitalize : Filter := onText Text.capitalize

def title : Filter := onText Text.titleWords

/-- Text without blanks, or without the characters of the argument, at either end. -/
def trim : Filter
  | .str s, argument =>
    let drop : Char → Bool :=
      match given argument with
      | some cs => fun c => cs.contains c
      | none => Text.isBlank
    .ok (.str (String.ofList (Text.trimBy drop s.toList)))
  | v, _ => .ok v

/-- The argument is what to look for and, after a comma, what to put there. -/
def replace : Filter
  | .str s, argument =>
    match given argument with
    | some cs =>
      let (search, replacement) := Text.cut ',' cs
      if search.isEmpty then .ok (.str s)
      else .ok (.str (String.ofList (Text.replaceAll search (replacement.getD []) s.toList)))
    | none => .ok (.str s)
  | v, _ => .ok v

/-- The pieces between occurrences of the argument; without one, the single code points. -/
def splitText (argument : Option String) (ps : List CodePoint) : List (List CodePoint) :=
  match given argument with
  | some sep => Text.splitOn (sep.map .char) ps
  | none => ps.map fun p => [p]

def split : Filter
  | .str s, argument => .ok (.list ((splitText argument (s.toList.map .char)).map .ofPoints))
  | .points ps, argument => .ok (.list ((splitText argument ps).map .ofPoints))
  | v, _ => .ok v

end Stencil.Filter
