/-
# Encodings of text

Files hold bytes; an encoding says which text they stand for, if any. The name
of an encoding is read without regard to case and punctuation, and each
encoding goes by several names. Whatever ends a line in a file, a line of text
ends with a line feed.

Key definitions: `Encoding`, `Encoding.ofName?`, `Encoding.decode?`,
`unifyLines`.
Key theorems: `unifyLines_of_not_mem`, `not_mem_unifyLines`.
-/
namespace Stencil

inductive Encoding where
  | utf8
  /-- One byte a character, with the number of the character. -/
  | latin1
  | ascii
  deriving DecidableEq, Repr

namespace Encoding

/-- Letters and digits of a name in small letters, with one underscore for whatever stands between
them; a point counts as a letter. -/
def plainName (name : String) : String :=
  let kept (c : Char) : Char := if c.isAlphanum || c = '.' then c.toLower else ' '
  let words := (String.ofList (name.toList.map kept)).splitOn " "
  "_".intercalate (words.filter (· ≠ ""))

/-- The name proper of an encoding. -/
def name : Encoding → String
  | utf8 => "utf_8"
  | latin1 => "latin_1"
  | ascii => "ascii"

/-- The other names of an encoding. -/
def aliases : Encoding → List String
  | utf8 => ["u8", "utf", "utf8", "utf8_ucs2", "utf8_ucs4", "cp65001"]
  | latin1 =>
    ["8859", "cp819", "csisolatin1", "ibm819", "iso8859", "iso8859_1", "iso_8859_1",
      "iso_8859_1_1987", "iso_ir_100", "l1", "latin", "latin1"]
  | ascii =>
    ["646", "ansi_x3.4_1968", "ansi_x3_4_1968", "ansi_x3.4_1986", "cp367", "csascii", "ibm367",
      "iso646_us", "iso_646.irv_1991", "iso_ir_6", "us", "us_ascii"]

/-- Whether an encoding goes by a name. In an alias a point may stand for an underscore. -/
def hasName (plain : String) (e : Encoding) : Bool :=
  e.name = plain || e.aliases.contains plain ||
    e.aliases.contains (String.ofList (plain.toList.map fun c => if c = '.' then '_' else c))

/-- The encoding with a name; a name with a NUL is none. -/
def ofName? (name : String) : Option Encoding :=
  if name.contains '\x00' then none
  else [utf8, latin1, ascii].find? (hasName (plainName name))

/-- The text that bytes stand for. -/
def decode? (e : Encoding) (bytes : ByteArray) : Option String :=
  let single : String := String.ofList (bytes.toList.map fun b => Char.ofNat b.toNat)
  match e with
  | utf8 => String.fromUTF8? bytes
  | latin1 => some single
  | ascii => if bytes.toList.all (· < 0x80) then some single else none

end Encoding

/-- A carriage return ends a line, alone or before a line feed. -/
def unifyLines : List Char → List Char
  | [] => []
  | '\r' :: '\n' :: cs => '\n' :: unifyLines cs
  | '\r' :: cs => '\n' :: unifyLines cs
  | c :: cs => c :: unifyLines cs

/-- Text with line feeds alone stays as it is. -/
theorem unifyLines_of_not_mem {cs : List Char} (h : '\r' ∉ cs) : unifyLines cs = cs := by
  induction cs with
  | nil => rfl
  | cons c cs ih =>
    have hc : c ≠ '\r' := fun e => h (by simp [e])
    rw [unifyLines.eq_4 c cs (fun _ e _ => hc e) hc, ih (fun m => h (List.mem_cons_of_mem c m))]

/-- No carriage return is left. -/
theorem not_mem_unifyLines (cs : List Char) : '\r' ∉ unifyLines cs := by
  fun_induction unifyLines cs with
  | case1 => simp
  | case2 cs ih => simp [ih]
  | case3 cs _ ih => simp [ih]
  | case4 c cs _ hc ih =>
    simp only [List.mem_cons, not_or]
    exact ⟨fun e => hc e.symm, ih⟩

/-- The text of a file. -/
def readText? (e : Encoding) (bytes : ByteArray) : Option String :=
  (e.decode? bytes).map fun s => String.ofList (unifyLines s.toList)

end Stencil
