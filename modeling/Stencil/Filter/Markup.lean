/-
# Filters for markup

Text that goes into a page is escaped, so that it cannot open a tag or an
entity; tags in a text are removed; line ends become line breaks; and text that
goes into an address is written in its safe characters.

A tag runs from a less-than sign to the first greater-than sign after it,
whatever stands between them.

Key definitions: `Filter.escapePoints`, `Filter.stripTags`, `Filter.breakLines`,
`Filter.percentEncode`, `Filter.queryText`.
-/
import Stencil.Filter.Basic
import Stencil.Text.Quoted

namespace Stencil.Filter

/-- A character that means itself in markup, inside quotes too. -/
def escapeChar (c : Char) : List Char :=
  if c = '&' then "&amp;".toList
  else if c = '<' then "&lt;".toList
  else if c = '>' then "&gt;".toList
  else if c = '"' then "&quot;".toList
  else if c = '\'' then "&#039;".toList
  else [c]

/-- A code point in markup; a half of a character means itself. -/
def escapePoint : CodePoint → List CodePoint
  | .char c => (escapeChar c).map .char
  | .half n => [.half n]

def escapePoints (ps : List CodePoint) : List CodePoint :=
  ps.flatMap escapePoint

mutual

/-- A text without its tags. -/
def stripTags : List CodePoint → List CodePoint
  | [] => []
  | p :: ps =>
    if p = .char '<' then
      match afterTag ps with
      | some rest => rest
      | none => p :: stripTags ps
    else p :: stripTags ps

/-- What remains of a text that begins inside a tag, unless the tag never ends. -/
def afterTag : List CodePoint → Option (List CodePoint)
  | [] => none
  | p :: ps => if p = .char '>' then some (stripTags ps) else afterTag ps

end

/-- A line break for every end of line. -/
def breakLines : List Char → List Char
  | [] => []
  | '\x0d' :: '\n' :: cs => "<br>".toList ++ breakLines cs
  | '\n' :: cs => "<br>".toList ++ breakLines cs
  | c :: cs => c :: breakLines cs

/-- An upper-case hexadecimal digit. -/
def upperHexDigit (n : Nat) : Char :=
  if n < 10 then Char.ofNat (0x30 + n) else Char.ofNat (0x37 + n)

def percentByte (b : UInt8) : List Char :=
  ['%', upperHexDigit (b.toNat / 16), upperHexDigit (b.toNat % 16)]

/-- The characters that stand for themselves in any part of an address. -/
def isUnreserved (c : Char) : Bool :=
  c.isAlphanum || c = '_' || c = '.' || c = '-' || c = '~'

/-- A character in an address: itself, or its bytes. -/
def percentChar (c : Char) : List Char :=
  if isUnreserved c then [c] else (String.utf8EncodeChar c).flatMap percentByte

def percentEncode (cs : List Char) : List Char :=
  cs.flatMap percentChar

/-- Text in a query, where a plus sign stands for a space. -/
def queryText (cs : List Char) : List Char :=
  cs.flatMap fun c => if c = ' ' then ['+'] else percentChar c

/-- Names and values as a query. -/
def query (fields : List (String × Value)) : List Char :=
  Text.joinWith ['&'] (fields.map fun f =>
    queryText f.1.toList ++ '=' :: queryText f.2.output.toList)

def escape : Filter := onCodePoints escapePoints

def striptags : Filter := onCodePoints stripTags

def nl2br : Filter := onText breakLines

/-- Texts and objects are written for an address. Halves of characters have no bytes to be written
by. -/
def urlEncode : Filter
  | .str s, _ => .ok (.str (String.ofList (percentEncode s.toList)))
  | .points _, _ => .error (.fault .unencodable)
  | .object fields, _ => do
    let made ← (Value.object fields).unlessLong (.str (String.ofList (query fields)))
    if (Value.object fields).halves.isEmpty then pure made else .error (.fault .unencodable)
  | v, _ => .ok v

end Stencil.Filter
