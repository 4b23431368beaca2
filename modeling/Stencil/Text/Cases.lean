/-
# Capitals and small letters

Text is mapped character by character; one character may become several. Only
the Greek capital sigma looks at its surroundings: it becomes the final form of
the small letter at the end of a word, that is, if a cased character stands
before it and none after it, where characters such as apostrophes and marks are
passed over on both sides.

Key definitions: `toUpper`, `toLower`, `capitalize`, `titleWords`.
-/
import Stencil.Text.Blank
import Stencil.Text.CaseTable

namespace Stencil.Text

/-- The image under the first run that holds the code point. -/
def applyRuns (runs : List CaseRun) (n : Nat) : Option Nat :=
  runs.findSome? fun r => r.apply? n

/-- A listed image of several characters, else the one of a run, else the character itself. -/
def mapCase (runs : List CaseRun) (specials : List (Nat × List Nat)) (c : Char) : List Char :=
  match specials.lookup c.toNat with
  | some image => image.map Char.ofNat
  | none =>
    match applyRuns runs c.toNat with
    | some n => [Char.ofNat n]
    | none => [c]

/-- The capital of a character. -/
def upperOf (c : Char) : List Char :=
  if c.toNat < 0x80 then [c.toUpper] else mapCase upperRuns upperSpecials c

/-- The small letter of a character, wherever it stands. -/
def lowerOf (c : Char) : List Char :=
  if c.toNat < 0x80 then [c.toLower] else mapCase lowerRuns lowerSpecials c

/-- The form of a character at the head of a capitalised word. -/
def titleOf (c : Char) : List Char :=
  if titleFixed.any fun r => r.1 ≤ c.toNat && c.toNat ≤ r.2 then [c]
  else
    match titleSpecials.lookup c.toNat with
    | some image => image.map Char.ofNat
    | none => upperOf c

def isCased (c : Char) : Bool :=
  within casedBounds c.toNat

def isCaseIgnorable (c : Char) : Bool :=
  within caseIgnorableBounds c.toNat

/-- The first character that is not passed over is cased. -/
def nextIsCased (cs : List Char) : Bool :=
  match cs.dropWhile isCaseIgnorable with
  | c :: _ => isCased c
  | [] => false

/-- Small letters of a text; `before` holds what precedes it, nearest first. -/
def lowerFrom (before : List Char) : List Char → List Char
  | [] => []
  | c :: cs =>
    let image :=
      if c = 'Σ' then (if nextIsCased before && !nextIsCased cs then ['ς'] else ['σ'])
      else lowerOf c
    image ++ lowerFrom (c :: before) cs

def toUpper (cs : List Char) : List Char :=
  cs.flatMap upperOf

def toLower (cs : List Char) : List Char :=
  lowerFrom [] cs

/-- A capital first, small letters after it. -/
def capitalize : List Char → List Char
  | [] => []
  | c :: cs => titleOf c ++ lowerFrom [c] cs

/-- A capital wherever a word begins: at the start and after each blank. -/
def raiseWordStarts (afterBlank : Bool) : List Char → List Char
  | [] => []
  | c :: cs =>
    if isBlank c then c :: raiseWordStarts true cs
    else (if afterBlank then upperOf c else [c]) ++ raiseWordStarts false cs

/-- Every word with a capital first and small letters after it. -/
def titleWords (cs : List Char) : List Char :=
  raiseWordStarts true (toLower cs)

end Stencil.Text
