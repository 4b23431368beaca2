/-
# Paths

A path is written as names with slashes between them. Empty names and single
dots are left out when a path is read; double dots stay, because what they mean
depends on the place the path starts from. A path that starts with a slash
starts at the root of all files; exactly two slashes in front are kept apart
from one.

A location is where a path leads: names from the root on, without any dots.

Key definitions: `Path`, `Path.ofText`, `Path.text`, `Path.join`, `Path.parent`,
`Location`, `Path.locate`, `Location.isWithin`.
Key theorems: `Path.join_of_isAbsolute`, `Location.isWithin_append`.
-/
import Stencil.Text.Split

namespace Stencil

/-- Where a path starts. -/
inductive Start where
  | here
  | root
  | doubleRoot
  deriving DecidableEq, Repr

/-- Names to go through from a start. -/
structure Path where
  start : Start
  parts : List String
  deriving DecidableEq, Repr

/-- Names from the root on, none of them a dot or two. -/
abbrev Location := List String

namespace Start

def text : Start → String
  | here => ""
  | root => "/"
  | doubleRoot => "//"

/-- The start that a number of slashes in front of a path means. -/
def ofSlashes : Nat → Start
  | 0 => here
  | 2 => doubleRoot
  | _ => root

end Start

namespace Path

/-- The names in a text, less those that lead nowhere. -/
def partsOf (cs : List Char) : List String :=
  ((Text.splitOn ['/'] cs).map String.ofList).filter fun part => part ≠ "" ∧ part ≠ "."

def ofText (s : String) : Path :=
  let cs := s.toList
  ⟨.ofSlashes (cs.takeWhile (· = '/')).length, partsOf cs⟩

/-- A path as it is written; one that leads nowhere is a dot. -/
def text (p : Path) : String :=
  let s := p.start.text ++ "/".intercalate p.parts
  if s.isEmpty then "." else s

def isAbsolute (p : Path) : Bool :=
  p.start ≠ .here

/-- A path that starts where another one ends, unless it has a start of its own. -/
def join (p q : Path) : Path :=
  if q.isAbsolute then q else ⟨p.start, p.parts ++ q.parts⟩

/-- The path from the root to a location. -/
def ofLocation (l : Location) : Path :=
  ⟨.root, l⟩

/-- A path without its last name. -/
def parent (p : Path) : Path :=
  ⟨p.start, p.parts.dropLast⟩

/-- Two dots lead back by one name, any other name leads on. -/
def step (l : Location) (part : String) : Location :=
  if part = ".." then l.dropLast else l ++ [part]

/-- Where a path leads from a location, whatever there may be on the way. -/
def locate (home : Location) (p : Path) : Location :=
  p.parts.foldl step (if p.isAbsolute then [] else home)

theorem join_of_isAbsolute {q : Path} (h : q.isAbsolute = true) (p : Path) : p.join q = q := by
  simp [join, h]

theorem isAbsolute_join (p q : Path) : (p.join q).isAbsolute = (p.isAbsolute || q.isAbsolute) := by
  cases h : q.isAbsolute <;> simp only [join, h] <;> simp [isAbsolute] at h ⊢
  exact h

/-- Going along two relative paths in turn leads where their join leads. -/
theorem locate_join {p q : Path} (h : q.isAbsolute = false) (home : Location) :
    (p.join q).locate home = q.parts.foldl step (p.locate home) := by
  have : (p.join q).isAbsolute = p.isAbsolute := by simp [isAbsolute_join, h]
  simp only [locate, this]
  simp [join, h, List.foldl_append]

end Path

namespace Location

/-- Whether a location is another one or lies below it. -/
def isWithin (inner outer : Location) : Bool :=
  outer.isPrefixOf inner

theorem isWithin_self (l : Location) : isWithin l l = true := by
  simp [isWithin]

theorem isWithin_append (l more : Location) : isWithin (l ++ more) l = true := by
  simp [isWithin]

end Location

end Stencil
