/-
# From text to tokens of YAML

Blocks are told by their columns: the lexer keeps the column of the block it is
in and those of the blocks around it. A token further to the left ends blocks.

Whether something is a key shows only at the colon after it. So the lexer keeps
in mind, for each level of brackets, the last place where a key may have started,
and inserts the token of the key there when it comes to a colon. A key lies on
one line and has at most 1024 characters. In a block, whatever starts in its
column has to be a key.

Key definitions: `Yaml.Lexer`, `Yaml.Lexer.token?`, `Yaml.tokens?`.
-/
import Stencil.Yaml.Block
import Stencil.Yaml.Plain
import Stencil.Yaml.Property

namespace Stencil.Yaml

/-- A place where a key may have started. -/
structure KeyStart where
  place : Place
  /-- The number of tokens before it. -/
  position : Nat
  /-- Whether nothing but a key may start there. -/
  required : Bool

structure Lexer where
  place : Place
  /-- The column of the block, or -1 outside of all blocks. -/
  indent : Int := -1
  /-- The columns of the blocks around it. -/
  outerIndents : List Int := []
  /-- Where a key may have started, within the innermost brackets. -/
  keyStart : Option KeyStart := none
  /-- The same for each level of brackets outside of them. -/
  outerKeyStarts : List (Option KeyStart) := []
  /-- Whether a key may start at the next token. -/
  mayKey : Bool := true
  /-- The tokens, last one first, and their number. -/
  tokens : List Token := []
  count : Nat := 0

namespace Lexer

/-- Whether the lexer is inside brackets. -/
def inFlow (s : Lexer) : Bool :=
  !s.outerKeyStarts.isEmpty

def emit (t : Token) (s : Lexer) : Lexer :=
  { s with tokens := t :: s.tokens, count := s.count + 1 }

/-- A token is put after the first tokens and before the others. -/
def insert (t : Token) (position : Nat) (s : Lexer) : Lexer :=
  let later := s.count - position
  { s with tokens := s.tokens.take later ++ t :: s.tokens.drop later, count := s.count + 1 }

/-- A block starts at a column to the right of the present one. -/
def openBlock (t : Token) (position column : Nat) (s : Lexer) : Lexer :=
  if s.inFlow || (column : Int) ≤ s.indent then s
  else { s.insert t position with indent := column, outerIndents := s.indent :: s.outerIndents }

/-- Blocks end that lie to the right of a column, given the columns around. -/
def closeFrom (column : Int) (s : Lexer) : List Int → Lexer
  | [] => s
  | outer :: outers =>
    if column < s.indent then
      closeFrom column { s.emit .blockEnd with indent := outer, outerIndents := outers } outers
    else s

def closeBlocks (column : Int) (s : Lexer) : Lexer :=
  if s.inFlow then s else s.closeFrom column s.outerIndents

/-- The place where a key may have started is given up. -/
def dropKey? (s : Lexer) : Option Lexer :=
  if s.keyStart.any KeyStart.required then none else some { s with keyStart := none }

/-- A key may start here, if one may start at all. -/
def saveKey? (s : Lexer) : Option Lexer :=
  if s.mayKey then
    (s.dropKey?).map fun s =>
      { s with keyStart := some ⟨s.place, s.count, !s.inFlow && s.indent = s.place.column⟩ }
  else some s

/-- The most characters of a key. -/
def keyLimit : Nat := 1024

/-- Whether a key that started at some place would have to be over by now. -/
def isStale (s : Lexer) (k : KeyStart) : Bool :=
  k.place.line < s.place.line || k.place.index + keyLimit < s.place.index

/-- The places that are too far back for a key are given up. -/
def forgetStale? (s : Lexer) : Option Lexer :=
  let fresh (k : Option KeyStart) : Option KeyStart := k.filter fun k => !s.isStale k
  if (s.keyStart :: s.outerKeyStarts).any fun k => k.any fun k => s.isStale k && k.required then none
  else some { s with keyStart := fresh s.keyStart, outerKeyStarts := s.outerKeyStarts.map fresh }

/-- A bracket opens. -/
def openFlow? (t : Token) (s : Lexer) : Option Lexer :=
  (s.saveKey?).map fun s =>
    { s.emit t with
      place := s.place.next
      keyStart := none
      outerKeyStarts := s.keyStart :: s.outerKeyStarts
      mayKey := true }

/-- A bracket closes. -/
def closeFlow? (t : Token) (s : Lexer) : Option Lexer :=
  (s.dropKey?).map fun s =>
    let s := match s.outerKeyStarts with
      | [] => s
      | k :: ks => { s with keyStart := k, outerKeyStarts := ks }
    { s.emit t with place := s.place.next, mayKey := false }

def comma? (s : Lexer) : Option Lexer :=
  (s.dropKey?).map fun s => { s.emit .comma with place := s.place.next, mayKey := true }

/-- A block that is opened here, unless the lexer is in brackets; only where a key may start. -/
def openHere? (t : Token) (s : Lexer) : Option Lexer :=
  if s.inFlow then some s
  else if s.mayKey then some (s.openBlock t s.count s.place.column)
  else none

/-- The dash of a list. -/
def dash? (s : Lexer) : Option Lexer := do
  let s ← (← s.openHere? .listStart).dropKey?
  pure { s.emit .dash with place := s.place.next, mayKey := true }

/-- The question mark before a key. -/
def questionMark? (s : Lexer) : Option Lexer := do
  let s ← (← s.openHere? .mappingStart).dropKey?
  pure { s.emit .key with place := s.place.next, mayKey := !s.inFlow }

/-- The colon after a key. A mapping may start with the key. -/
def colon? (s : Lexer) : Option Lexer :=
  match s.keyStart with
  | some k =>
    let s := (s.insert .key k.position).openBlock .mappingStart k.position k.place.column
    some { s.emit .value with place := s.place.next, keyStart := none, mayKey := false }
  | none =>
    (s.openHere? .mappingStart).map fun s =>
      { s.emit .value with place := s.place.next, mayKey := !s.inFlow }

/-- A token that may be part of a key; afterwards no key may start. -/
def part? (s : Lexer) (read : Place → Option (Token × Place)) : Option Lexer := do
  let s ← s.saveKey?
  let (t, place) ← read s.place
  pure { s.emit t with place, mayKey := false }

/-- A scalar without quotes. If it ends on a line of its own, a key may start there. -/
def plain? (turns : Nat) (s : Lexer) : Option Lexer := do
  let s ← s.saveKey?
  let (scalar, mayKey, place) ← Yaml.plain? s.inFlow (s.indent + 1) turns s.place
  pure { s.emit (.scalar scalar) with place, mayKey }

/-- A scalar in a block. -/
def block? (turns : Nat) (s : Lexer) : Option Lexer := do
  let s ← s.dropKey?
  let (scalar, place) ← Block.read? s.indent turns s.place
  pure { s.emit (.scalar scalar) with place, mayKey := true }

/-- Something that stands between documents. -/
def between? (s : Lexer) (read : Place → Option (Token × Place)) : Option Lexer := do
  let s ← (s.closeBlocks (-1)).dropKey?
  let (t, place) ← read s.place
  pure { s.emit t with place, mayKey := false }

/-- The token that the text goes on with. -/
def token? (turns : Nat) (s : Lexer) : Option Lexer :=
  let marker (t : Token) (p : Place) : Option (Token × Place) := some (t, p.advance 3)
  let atLineStart := s.place.column = 0
  if atLineStart && s.place.rest.head? = some '%' then s.between? directive?
  else if atLineStart && startsDocument s.place.rest then s.between? (marker .documentStart)
  else if atLineStart && endsDocument s.place.rest then s.between? (marker .documentEnd)
  else
    match s.place.rest with
    | [] => none
    | c :: cs =>
      if c = '[' then s.openFlow? .flowListStart
      else if c = '\x7b' then s.openFlow? .flowMappingStart
      else if c = ']' then s.closeFlow? .flowListEnd
      else if c = '\x7d' then s.closeFlow? .flowMappingEnd
      else if c = ',' then s.comma?
      else if c = '-' && atGap cs then s.dash?
      else if c = '?' && (s.inFlow || atGap cs) then s.questionMark?
      else if c = ':' && (s.inFlow || atGap cs) then s.colon?
      else if c = '*' then s.part? fun p => (anchor? p).map fun r => (.alias r.1, r.2)
      else if c = '&' then s.part? fun p => (anchor? p).map fun r => (.anchor r.1, r.2)
      else if c = '!' then s.part? tag?
      else if (c = '|' || c = '>') && !s.inFlow then s.block? turns
      else if c = '\'' || c = '"' then
        s.part? fun p => (quoted? p).map fun r => (.scalar r.1, r.2)
      else if startsPlain s.inFlow (c :: cs) then s.plain? turns
      else none

/-- The lexer before its next token: past all gaps, with the blocks closed that end before it. -/
def arrive? (s : Lexer) : Option Lexer :=
  let (mayKey, place) := s.place.skip s.inFlow s.mayKey
  (forgetStale? { s with place, mayKey }).map fun s => s.closeBlocks s.place.column

/-- All tokens up to the end of the text. Each turn reads at least one character. -/
def run? : Nat → Lexer → Option (List Token)
  | 0, _ => none
  | turns + 1, s => do
    let s ← s.arrive?
    if s.place.rest.isEmpty then
      let s ← (s.closeBlocks (-1)).dropKey?
      pure s.tokens.reverse
    else run? turns (← s.token? (turns + 1))

end Lexer

/-- The tokens of a text. A mark of the encoding may stand in front of it. -/
def tokens? (s : String) : Option (List Token) :=
  let cs := s.toList
  let cs := if cs.head? = some byteOrderMark then cs.drop 1 else cs
  if cs.all isAllowed then Lexer.run? (cs.length + 2) { place := .start cs } else none

end Stencil.Yaml
