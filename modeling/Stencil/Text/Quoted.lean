/-
# Quoted text

Text in quotes as messages and listings show it: single quotes, or double ones
if the text holds a single quote and no double one. A backslash, the quote in
use and the characters that cannot be printed are escaped.

Key definitions: `quote`, `quotePoints`, `escapeBeyondAscii`.
-/
import Stencil.Text.CodePoint
import Stencil.Text.Hex
import Stencil.Text.Printables

namespace Stencil.Text

/-- The shortest of the numeric escapes that has room for a code point. -/
def numericEscape (n : Nat) : List Char :=
  if n < 0x100 then '\\' :: 'x' :: hexPadded 2 n
  else if n < 0x10000 then '\\' :: 'u' :: hexPadded 4 n
  else '\\' :: 'U' :: hexPadded 8 n

/-- One character inside quotes. -/
def quoteChar (mark c : Char) : List Char :=
  if c = mark ∨ c = '\\' then ['\\', c]
  else if c = '\n' then ['\\', 'n']
  else if c = '\r' then ['\\', 'r']
  else if c = '\t' then ['\\', 't']
  else if isPrintable c then [c]
  else numericEscape c.toNat

/-- The quote that needs the fewest escapes, single if in doubt. -/
def quoteMark (cs : List Char) : Char :=
  if cs.contains '\'' && !cs.contains '"' then '"' else '\''

/-- Text in quotes. -/
def quote (s : String) : String :=
  let cs := s.toList
  let mark := quoteMark cs
  String.ofList (mark :: cs.flatMap (quoteChar mark) ++ [mark])

/-- Code points in quotes; halves of characters cannot be printed. -/
def quotePoints (ps : List CodePoint) : List Char :=
  let mark := quoteMark (ps.filterMap CodePoint.char?)
  let one : CodePoint → List Char
    | .char c => quoteChar mark c
    | .half n => numericEscape (CodePoint.half n).number
  mark :: ps.flatMap one ++ [mark]

/-- Text with everything beyond ASCII escaped. -/
def escapeBeyondAscii (cs : List Char) : List Char :=
  cs.flatMap fun c => if c.toNat < 0x80 then [c] else numericEscape c.toNat

end Stencil.Text
