/-
# Scalars of YAML in blocks

A scalar may be written as a block of indented lines after a header. A literal
block keeps its line ends; in a folded block a line end between two lines that
do not start with a blank becomes a space, or is lost if empty lines follow. The
header says how deep the block is indented, unless its first line shows it, and
what becomes of the line ends behind it: all stay, none, or one.

Key definitions: `Yaml.Block.Header`, `Yaml.Block.header?`, `Yaml.Block.breaks?`,
`Yaml.Block.read?`.
-/
import Stencil.Yaml.Quoted

namespace Stencil.Yaml.Block

/-- What becomes of the line ends behind a block. -/
inductive Chomp where
  | strip
  | clip
  | keep
  deriving DecidableEq, Repr

/-- The header of a block: how deep it is indented, if that is said, and what becomes of the line
ends behind it. -/
structure Header where
  chomp : Chomp := .clip
  depth : Option Nat := none
  /-- How many characters the header has. -/
  width : Nat := 0

/-- The sign in a header. -/
def chomp? (c : Char) : Option Chomp :=
  if c = '+' then some .keep else if c = '-' then some .strip else none

/-- The digit in a header. -/
def depth? (c : Char) : Option Nat :=
  if c.isDigit then some (c.toNat - 0x30) else none

/-- The sign and the digit of a header, in either order; the digit cannot be zero. -/
def header? (cs : List Char) : Option Header :=
  let first := cs.head?
  let second := (cs.drop 1).head?
  let h : Header :=
    match first.bind chomp?, first.bind depth? with
    | some chomp, _ =>
      match second.bind depth? with
      | some d => ⟨chomp, some d, 2⟩
      | none => ⟨chomp, none, 1⟩
    | none, some d =>
      match second.bind chomp? with
      | some chomp => ⟨chomp, some d, 2⟩
      | none => ⟨.clip, some d, 1⟩
    | none, none => {}
  if h.depth = some 0 then none else some h

/-- The line ends before the next line of a block, the deepest of the lines in between, and the
place where the block may go on. A depth of none is still unknown. A tab may not indent. -/
def breaksFrom? (depth : Option Nat) (deepest : Nat) (p : Place) :
    List Char → Option (List Char × Nat × Place)
  | [] => some ([], max deepest p.column, p)
  | c :: cs =>
    let outside := depth.all fun d => p.column < d
    if outside && c = ' ' then breaksFrom? depth deepest (p.after c cs) cs
    else if outside && c = '\t' then none
    else if isBreak c then
      (breaksFrom? depth (max deepest p.column) (p.after c cs) cs).map
        fun r => (breakChar c :: r.1, r.2)
    else some ([], max deepest p.column, p)

def breaks? (depth : Option Nat) (p : Place) : Option (List Char × Nat × Place) :=
  breaksFrom? depth 0 p p.rest

/-- What stands between two lines: a line end, and those of empty lines. -/
def between (literal blankBefore blankAfter : Bool) (first more : List Char) : List Char :=
  if !literal && first = ['\n'] && !blankBefore && !blankAfter then
    (if more.isEmpty then [' '] else more)
  else first ++ more

/-- The lines of a block after a line end and those of empty lines; `blankBefore` says whether the
line before starts with a blank. Each turn reads at least one character. -/
def linesFrom? (literal : Bool) (chomp : Chomp) (depth : Nat) :
    Nat → Bool → List Char → List Char → Place → Option (List Char × Place)
  | 0, _, _, _, _ => none
  | turns + 1, blankBefore, first, more, p =>
    if p.column = depth && !p.rest.isEmpty then
      let blankHere := p.rest.head?.any isBlank
      let (line, q) := p.takeChars fun c => !isBreak c
      let lineEnd := (q.rest.take 1).map breakChar
      match breaks? (some depth) q.next with
      | none => none
      | some (empties, _, r) =>
        (linesFrom? literal chomp depth turns blankHere lineEnd empties r).map
          fun t => (between literal blankBefore blankHere first more ++ line ++ t.1, t.2)
    else
      let tail :=
        match chomp with
        | .strip => []
        | .clip => first
        | .keep => first ++ more
      some (tail, p)

/-- The block whose header starts after the mark at a place, inside a block of some indentation. -/
def read? (indent : Int) (turns : Nat) (p : Place) : Option (Scalar × Place) :=
  let literal := p.rest.head? = some '|'
  match header? p.next.rest with
  | none => none
  | some h =>
    let q := (p.advance (h.width + 1)).skipComment
    if !q.rest.isEmpty && !q.rest.head?.any isBreak then none
    else
      let given := h.depth.map fun n => n + indent.toNat
      match breaks? given q.next with
      | none => none
      | some (empties, deepest, r) =>
        let depth := given.getD (max (max deepest (indent + 1).toNat) 1)
        (linesFrom? literal h.chomp depth turns false [] empties r).map
          fun t => (⟨true, t.1⟩, t.2)

end Stencil.Yaml.Block
