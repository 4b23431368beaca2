/-
# Quoted scalars of YAML

In single quotes a quote is written twice and nothing else is special. In
double quotes a backslash starts an escape. A scalar may go over several lines:
the blanks around a line end do not count, a line end by itself is a space, and
of several line ends one is lost. A line end after a backslash does not count at
all. The separators of lines and paragraphs are never lost.

Key definitions: `Yaml.Gap`, `Yaml.fold`, `Yaml.singlePieces?`,
`Yaml.doublePieces?`, `Yaml.quoted?`.
-/
import Stencil.Text.Hex
import Stencil.Yaml.Place
import Stencil.Yaml.Token

namespace Stencil.Yaml

/-- What the end of a line is within a scalar. -/
def breakChar (c : Char) : Char :=
  if c = '\u2028' || c = '\u2029' then c else '\n'

/-- What line ends amount to: the first of them, and the others. -/
def folded (first more : List Char) : List Char :=
  if first = ['\n'] then (if more.isEmpty then [' '] else more) else first ++ more

/-- What stands between two words of a scalar, last character first. -/
inductive Gap where
  | blanks (cs : List Char)
  /-- At least one line end; the first may be one that does not count. -/
  | breaks (first more : List Char)

namespace Gap

def none : Gap := blanks []

def hasBreaks : Gap → Bool
  | blanks _ => false
  | breaks _ _ => true

def text : Gap → List Char
  | blanks cs => cs.reverse
  | breaks first more => folded first more.reverse

/-- A gap with a further blank. -/
def blank (c : Char) : Gap → Gap
  | blanks cs => blanks (c :: cs)
  | g => g

/-- A gap with a further line end. -/
def lineEnd (c : Char) : Gap → Gap
  | blanks _ => breaks [breakChar c] []
  | breaks first more => breaks first (breakChar c :: more)

end Gap

/-- What stands between quotes, piece by piece. -/
inductive Piece where
  | literal (c : Char)
  | escaped (c : Char)
  /-- A line end that does not count. -/
  | join

/-- The text of some pieces after a gap. -/
def foldFrom (g : Gap) : List Piece → List Char
  | [] => g.text
  | .literal c :: ps =>
    if isBreak c then foldFrom (g.lineEnd c) ps
    else if isBlank c then foldFrom (g.blank c) ps
    else g.text ++ c :: foldFrom .none ps
  | .escaped c :: ps => g.text ++ c :: foldFrom .none ps
  | .join :: ps => g.text ++ foldFrom (.breaks [] []) ps

/-- The text of some pieces. -/
def fold (ps : List Piece) : List Char :=
  foldFrom .none ps

/-- The pieces up to the closing quote, and how many characters they take with the quote. -/
abbrev Pieces := List Piece × Nat

/-- Pieces after a further one that takes some characters. -/
def prepend (piece : Piece) (width : Nat) (r : Option Pieces) : Option Pieces :=
  r.map fun r => (piece :: r.1, width + r.2)

/-- The pieces up to a single quote that is not written twice. No line in them may look like a mark
of a document. -/
def singlePieces? (lineStart : Bool) : List Char → Option Pieces
  | [] => none
  | '\'' :: '\'' :: cs => prepend (.escaped '\'') 2 (singlePieces? false cs)
  | '\'' :: _ => some ([], 1)
  | c :: cs =>
    if lineStart && isMarker (c :: cs) then none
    else prepend (.literal c) 1 (singlePieces? (isBreak c) cs)

/-- The character with a hexadecimal number. -/
def hexChar? (ds : List Char) : Option Char :=
  match Text.readHex? ds with
  | some n => if n.isValidChar then some (Char.ofNat n) else none
  | none => none

/-- The characters that stand for others after a backslash. -/
def namedEscapes : List (Char × Char) := [
  ('0', '\x00'), ('a', '\x07'), ('b', '\x08'), ('t', '\t'), ('\t', '\t'), ('n', '\n'),
  ('v', '\x0b'), ('f', '\x0c'), ('r', '\x0d'), ('e', '\x1b'), (' ', ' '), ('"', '"'),
  ('\'', '\''), ('\\', '\\'), ('N', '\u0085'), ('_', '\u00a0'), ('L', '\u2028'), ('P', '\u2029')]

/-- Pieces after an escaped character, if it is one. -/
def prependEscaped (c : Option Char) (width : Nat) (r : Option Pieces) : Option Pieces :=
  c.bind fun c => prepend (.escaped c) width r

/-- The pieces up to a double quote without a backslash. No line in them may look like a mark of a
document. -/
def doublePieces? (lineStart : Bool) : List Char → Option Pieces
  | [] => none
  | '"' :: _ => some ([], 1)
  | '\\' :: 'x' :: a :: b :: cs => prependEscaped (hexChar? [a, b]) 4 (doublePieces? false cs)
  | '\\' :: 'u' :: a :: b :: c :: d :: cs =>
    prependEscaped (hexChar? [a, b, c, d]) 6 (doublePieces? false cs)
  | '\\' :: 'U' :: a :: b :: c :: d :: e :: f :: g :: h :: cs =>
    prependEscaped (hexChar? [a, b, c, d, e, f, g, h]) 10 (doublePieces? false cs)
  | '\\' :: c :: cs =>
    if isBreak c then prepend .join 2 (doublePieces? true cs)
    else prependEscaped (namedEscapes.lookup c) 2 (doublePieces? false cs)
  | c :: cs =>
    if lineStart && isMarker (c :: cs) then none
    else prepend (.literal c) 1 (doublePieces? (isBreak c) cs)

/-- The scalar in quotes that starts at a place, and the place after it. -/
def quoted? (p : Place) : Option (Scalar × Place) :=
  match p.rest with
  | '"' :: cs => (doublePieces? false cs).map fun r => (⟨true, fold r.1⟩, p.advance (r.2 + 1))
  | '\'' :: cs => (singlePieces? false cs).map fun r => (⟨true, fold r.1⟩, p.advance (r.2 + 1))
  | _ => none

end Stencil.Yaml
