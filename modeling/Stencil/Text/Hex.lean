/-
# Hexadecimal digits

Numbers to the base sixteen, written in small letters and read in either case.

Key definitions: `hexDigit`, `hexPadded`, `isHexDigit`, `readHex?`.
Key theorems: `length_hexPadded`.
-/
namespace Stencil.Text

/-- The lower-case digit of a value below sixteen. -/
def hexDigit (n : Nat) : Char :=
  if n < 10 then Char.ofNat (0x30 + n) else Char.ofNat (0x57 + n)

/-- The last `width` hexadecimal digits of a number. -/
def hexPadded : Nat → Nat → List Char
  | 0, _ => []
  | width + 1, n => hexPadded width (n / 16) ++ [hexDigit (n % 16)]

theorem length_hexPadded (width n : Nat) : (hexPadded width n).length = width := by
  induction width generalizing n with
  | zero => rfl
  | succ width ih => simp [hexPadded, ih]

def isHexDigit (c : Char) : Bool :=
  c.isDigit || ('a' ≤ c && c ≤ 'f') || ('A' ≤ c && c ≤ 'F')

/-- The value of a hexadecimal digit. -/
def hexValue (c : Char) : Nat :=
  if c.isDigit then c.toNat - 0x30 else c.toLower.toNat - 0x57

/-- The number that some digits stand for, if they all are digits. -/
def readHex? (ds : List Char) : Option Nat :=
  if ds.all isHexDigit then some (ds.foldl (fun n c => 16 * n + hexValue c) 0) else none

end Stencil.Text
