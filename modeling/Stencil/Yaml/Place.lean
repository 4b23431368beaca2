/-
# Places in YAML

A place is where something starts in a text: what is left of the text from
there on, and the number of characters, lines, and characters of the line that
come before it. Lines end with a line feed, a carriage return, or one of the
line ends of Unicode.

A mark of a document is three hyphens or three dots at the start of a line, with
a gap after them.

Key definitions: `Yaml.isBreak`, `Yaml.atGap`, `Yaml.Place`,
`Yaml.Place.takeWhile`, `Yaml.Place.skip`, `Yaml.isAllowed`.
-/
namespace Stencil.Yaml

def isBlank (c : Char) : Bool :=
  c = ' ' || c = '\t'

/-- The characters that end a line. -/
def isBreak (c : Char) : Bool :=
  c = '\n' || c = '\x0d' || c = '\u0085' || c = '\u2028' || c = '\u2029'

/-- Whether a text is at an end or goes on with a blank or the end of a line. -/
def atGap : List Char → Bool
  | [] => true
  | c :: _ => isBlank c || isBreak c

/-- Whether a line starts with the mark that a document starts, or ends, here. -/
def startsDocument (line : List Char) : Bool :=
  line.take 3 = ['-', '-', '-'] && atGap (line.drop 3)

def endsDocument (line : List Char) : Bool :=
  line.take 3 = ['.', '.', '.'] && atGap (line.drop 3)

def isMarker (line : List Char) : Bool :=
  startsDocument line || endsDocument line

/-- The mark that a text may begin with to tell its encoding. -/
def byteOrderMark : Char := '\ufeff'

/-- What is left of a text, and where it starts. -/
structure Place where
  rest : List Char
  index : Nat
  line : Nat
  column : Nat

namespace Place

def start (cs : List Char) : Place :=
  ⟨cs, 0, 0, 0⟩

/-- The place after a character that is followed by a text. -/
def after (p : Place) (c : Char) (cs : List Char) : Place :=
  if isBreak c then ⟨cs, p.index + 1, p.line + 1, 0⟩ else ⟨cs, p.index + 1, p.line, p.column + 1⟩

/-- The place after one character. -/
def next (p : Place) : Place :=
  match p.rest with
  | [] => p
  | c :: cs => p.after c cs

/-- The place after some characters. -/
def advance (p : Place) : Nat → Place
  | 0 => p
  | n + 1 => p.next.advance n

/-- The characters of a text up to the first where a condition on what is left fails. -/
def takeFrom (f : List Char → Bool) (p : Place) : List Char → List Char × Place
  | [] => ([], p)
  | c :: cs =>
    if f (c :: cs) then
      let (more, q) := takeFrom f (p.after c cs) cs
      (c :: more, q)
    else ([], p)

/-- The characters at a place as long as a condition on what is left holds. -/
def takeWhile (f : List Char → Bool) (p : Place) : List Char × Place :=
  takeFrom f p p.rest

/-- The characters at a place as long as each of them is of a kind. -/
def takeChars (f : Char → Bool) (p : Place) : List Char × Place :=
  p.takeWhile fun cs => cs.head?.any f

/-- The place after blanks. -/
def skipBlanks (p : Place) : Place :=
  (p.takeChars isBlank).2

/-- The place at the end of a line, after blanks and a comment. -/
def skipComment (p : Place) : Place :=
  let p := p.skipBlanks
  if p.rest.head? = some '#' then (p.takeChars fun c => !isBreak c).2 else p

/-- Whether a document starts or ends here. -/
def atMarker (p : Place) : Bool :=
  p.column = 0 && isMarker p.rest

/-- The first place of a text with anything but blanks, comments and line ends, and whether a key
may start there. In block style a key may start on a new line, and where one may start tabs are no
blanks. -/
def skipFrom (flow mayKey comment : Bool) (p : Place) : List Char → Bool × Place
  | [] => (mayKey, p)
  | c :: cs =>
    if isBreak c then skipFrom flow (mayKey || !flow) false (p.after c cs) cs
    else if comment || c = ' ' || (c = '\t' && (flow || !mayKey)) ||
        (c = byteOrderMark && p.column = 0) then
      skipFrom flow mayKey comment (p.after c cs) cs
    else if c = '#' then skipFrom flow mayKey true (p.after c cs) cs
    else (mayKey, p)

def skip (p : Place) (flow mayKey : Bool) : Bool × Place :=
  skipFrom flow mayKey false p p.rest

end Place

/-- The characters that may occur. -/
def isAllowed (c : Char) : Bool :=
  let n := c.toNat
  n = 0x9 || n = 0xa || n = 0xd || (0x20 ≤ n && n ≤ 0x7e) || n = 0x85 ||
    (0xa0 ≤ n && n ≤ 0xd7ff) || (0xe000 ≤ n && n ≤ 0xfffd) || 0x10000 ≤ n

end Stencil.Yaml
