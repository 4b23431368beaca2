/-
# Code points

A text is a row of characters. There is one source of texts that are more: JSON
can name the two halves of a character one by one, and a half may stand alone.
Such a half is a code point with a number of its own, but no character, and it
counts as one place in the text.

Work that is made for characters is done with a stand-in for each half, a
character for private use that occurs nowhere near; afterwards the halves come
back.

Key definitions: `CodePoint`, `CodePoint.chars?`, `StandIns`, `StandIns.choose`,
`StandIns.hide`, `StandIns.restore`.
Key theorems: `CodePoint.chars?_map_char`, `CodePoint.eq_map_of_chars?`.
-/
namespace Stencil

/-- A character, or one of the halves with the numbers from `0xd800` up to `0xe000`. -/
inductive CodePoint where
  | char (c : Char)
  | half (n : Fin 2048)
  deriving DecidableEq, Repr

namespace CodePoint

def number : CodePoint → Nat
  | char c => c.toNat
  | half n => 0xd800 + n

/-- The code point with a number below `0x110000`. -/
def ofNumber (n : Nat) : CodePoint :=
  if h : 0xd800 ≤ n ∧ n < 0xe000 then half ⟨n - 0xd800, by omega⟩ else char (Char.ofNat n)

def char? : CodePoint → Option Char
  | char c => some c
  | half _ => none

def half? : CodePoint → Option (Fin 2048)
  | char _ => none
  | half n => some n

/-- The character that is shown for a code point: a mark for a half. -/
def shown : CodePoint → Char
  | char c => c
  | half _ => '\ufffd'

/-- The characters of a text without halves. -/
def chars? : List CodePoint → Option (List Char)
  | [] => some []
  | char c :: ps => (chars? ps).map (c :: ·)
  | half _ :: _ => none

theorem chars?_map_char (cs : List Char) : chars? (cs.map char) = some cs := by
  induction cs with
  | nil => rfl
  | cons c cs ih => simp [chars?, ih]

/-- Only texts without halves are made of characters. -/
theorem eq_map_of_chars? {ps : List CodePoint} {cs : List Char} (h : chars? ps = some cs) :
    ps = cs.map char := by
  induction ps generalizing cs with
  | nil =>
    cases h
    rfl
  | cons p ps ih =>
    cases p with
    | half n => cases h
    | char c =>
      obtain ⟨ds, made, rfl⟩ := Option.map_eq_some_iff.mp h
      rw [ih made, List.map_cons]

end CodePoint

/-- Characters in place of halves. -/
abbrev StandIns := List (Fin 2048 × Char)

namespace StandIns

/-- The first of the characters for private use from which stand-ins are taken. -/
def firstPrivate : Nat := 0xf0000

/-- A stand-in for each half, none of them one of the characters in use. There are as many
candidates as characters that have to be kept apart. -/
def choose (halves : List (Fin 2048)) (used : List Char) : StandIns :=
  let halves := halves.eraseDups
  let taken := used.filter fun c => firstPrivate ≤ c.toNat
  let candidates :=
    (List.range (taken.length + halves.length)).map fun i => Char.ofNat (firstPrivate + i)
  halves.zip (candidates.filter fun c => !taken.contains c)

/-- The character that a code point is replaced by. -/
def hide (s : StandIns) : CodePoint → Char
  | .char c => c
  | .half n => (s.lookup n).getD '\ufffd'

/-- The code point that a character stands for. -/
def restore (s : StandIns) (c : Char) : CodePoint :=
  match s.find? fun p => p.2 = c with
  | some p => .half p.1
  | none => .char c

end StandIns

end Stencil
