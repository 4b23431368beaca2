/-
# Reading JSON

The reader takes one value with blanks around it. Besides what JSON knows it
takes the names of infinity and of what is not a number. A numeral without
fraction and power of ten is an integer of any size up to the length that is
read at all. Where an object names a field twice, the last value counts, at the
place of the first.

Key definitions: `Json.Problem`, `Json.readString?`, `Json.readUnsigned`,
`Json.readValue`, `Value.ofJson`.
-/
import Stencil.Number.Numeral
import Stencil.Text.Hex
import Stencil.Value.Basic

namespace Stencil

namespace Json

/-- Why a text is no value. -/
inductive Problem where
  | malformed
  /-- An integer has more digits than are read. -/
  | tooLong
  deriving DecidableEq, Repr

/-- The four characters that may stand between the parts of a value. -/
def isSpace (c : Char) : Bool :=
  c = ' ' || c = '\t' || c = '\n' || c = '\r'

def skipSpace (cs : List Char) : List Char :=
  cs.dropWhile isSpace

/-- The characters that stand for others after a backslash. -/
def namedEscapes : List (Char × Char) := [
  ('"', '"'), ('\\', '\\'), ('/', '/'), ('b', '\x08'), ('f', '\x0c'), ('n', '\n'), ('r', '\r'),
  ('t', '\t')]

/-- The first half of a pair that stands for one character. -/
def isHigh (n : Nat) : Bool := 0xd800 ≤ n && n < 0xdc00

/-- The second half of such a pair. -/
def isLow (n : Nat) : Bool := 0xdc00 ≤ n && n < 0xe000

/-- The character of a pair. -/
def pairPoint (high low : Nat) : CodePoint :=
  .ofNumber (0x10000 + (high - 0xd800) * 0x400 + (low - 0xdc00))

/-- The string after its opening quote, and what follows its closing one. Half of a pair may stand
by itself. -/
def readString? : List Char → Option (List CodePoint × List Char)
  | [] => none
  | '"' :: cs => some ([], cs)
  | '\\' :: 'u' :: a :: b :: c :: d :: '\\' :: 'u' :: e :: f :: g :: h :: cs =>
    match Text.readHex? [a, b, c, d], Text.readHex? [e, f, g, h] with
    | some m, some n =>
      if isHigh m && isLow n then (readString? cs).map fun r => (pairPoint m n :: r.1, r.2)
      else
        (readString? ('\\' :: 'u' :: e :: f :: g :: h :: cs)).map fun r => (.ofNumber m :: r.1, r.2)
    | some m, none =>
      (readString? ('\\' :: 'u' :: e :: f :: g :: h :: cs)).map fun r => (.ofNumber m :: r.1, r.2)
    | none, _ => none
  | '\\' :: 'u' :: a :: b :: c :: d :: cs =>
    match Text.readHex? [a, b, c, d] with
    | some m => (readString? cs).map fun r => (.ofNumber m :: r.1, r.2)
    | none => none
  | '\\' :: c :: cs =>
    match namedEscapes.lookup c with
    | some image => (readString? cs).map fun r => (.char image :: r.1, r.2)
    | none => none
  | c :: cs => if c.toNat < 0x20 then none else (readString? cs).map fun r => (.char c :: r.1, r.2)

/-- The whole part of a numeral: a zero, or digits that start with none. -/
def wholePart (cs : List Char) : List Char :=
  if cs.head? = some '0' then ['0'] else cs.takeWhile Char.isDigit

/-- The fraction of a numeral with its point, if there is one. -/
def fractionPart : List Char → List Char
  | '.' :: cs =>
    let ds := cs.takeWhile Char.isDigit
    if ds.isEmpty then [] else '.' :: ds
  | _ => []

/-- The power of ten of a numeral with its letter, if there is one. -/
def powerPart : List Char → List Char
  | letter :: cs =>
    if letter = 'e' || letter = 'E' then
      let sign := cs.take (if cs.head? = some '-' || cs.head? = some '+' then 1 else 0)
      let ds := (cs.drop sign.length).takeWhile Char.isDigit
      if ds.isEmpty then [] else letter :: sign ++ ds
    else []
  | [] => []

/-- A numeral after its sign. -/
def readUnsigned (negative : Bool) (cs : List Char) : Except Problem (Value × List Char) :=
  let whole := wholePart cs
  let rest := cs.drop whole.length
  let fraction := fractionPart rest
  let power := powerPart (rest.drop fraction.length)
  let rest := rest.drop (fraction.length + power.length)
  if whole.isEmpty then .error .malformed
  else if fraction.isEmpty && power.isEmpty then
    if Number.digitLimit < whole.length then .error .tooLong
    else
      let n : Int := Number.asciiValue whole
      .ok (.int (if negative then -n else n), rest)
  else
    match Number.readUnsigned? negative (whole ++ fraction ++ power) with
    | some d => .ok (.float d.toBinary, rest)
    | none => .error .malformed

/-- What follows a word at the head of a text. -/
def dropWord? (word : String) (cs : List Char) : Option (List Char) :=
  if word.toList.isPrefixOf cs then some (cs.drop word.length) else none

/-- The values that are written as words. -/
def words : List (String × Value) := [
  ("null", .null), ("true", .bool true), ("false", .bool false), ("NaN", .float .nan),
  ("Infinity", .float (.infinite false)), ("-Infinity", .float (.infinite true))]

/-- A word or a numeral. -/
def readAtom (cs : List Char) : Except Problem (Value × List Char) :=
  match words.findSome? fun w => (dropWord? w.1 cs).map fun rest => (w.2, rest) with
  | some r => .ok r
  | none =>
    match cs with
    | '-' :: ds => readUnsigned true ds
    | ds => readUnsigned false ds

mutual

/-- A value at the head of a text. -/
def readValue : Nat → List Char → Except Problem (Value × List Char)
  | 0, _ => .error .malformed
  | fuel + 1, cs =>
    match cs with
    | '"' :: cs =>
      match readString? cs with
      | some (ps, rest) => .ok (.ofPoints ps, rest)
      | none => .error .malformed
    | '[' :: cs =>
      match skipSpace cs with
      | ']' :: rest => .ok (.list [], rest)
      | cs => (readItems fuel cs).map fun r => (.list r.1, r.2)
    | '\x7b' :: cs =>
      match skipSpace cs with
      | '\x7d' :: rest => .ok (.object [], rest)
      | cs => (readFields fuel [] cs).map fun r => (.object r.1, r.2)
    | cs => readAtom cs

/-- Items up to a closing bracket. -/
def readItems : Nat → List Char → Except Problem (List Value × List Char)
  | 0, _ => .error .malformed
  | fuel + 1, cs => do
    let (v, rest) ← readValue fuel cs
    match skipSpace rest with
    | ',' :: rest => do
      let (vs, rest) ← readItems fuel (skipSpace rest)
      pure (v :: vs, rest)
    | ']' :: rest => pure ([v], rest)
    | _ => .error .malformed

/-- Fields up to a closing brace, after some others. -/
def readFields : Nat → Table Value → List Char → Except Problem (Table Value × List Char)
  | 0, _, _ => .error .malformed
  | fuel + 1, before, '"' :: cs =>
    match readString? cs with
    | none => .error .malformed
    | some (name, rest) =>
      match skipSpace rest with
      | ':' :: rest => do
        let (v, rest) ← readValue fuel (skipSpace rest)
        let fields := Table.put (String.ofList (name.map CodePoint.shown)) v before
        match skipSpace rest with
        | ',' :: rest => readFields fuel fields (skipSpace rest)
        | '\x7d' :: rest => pure (fields, rest)
        | _ => .error .malformed
      | _ => .error .malformed
  | _ + 1, _, _ => .error .malformed

end

end Json

/-- The value that a text stands for. -/
def Value.ofJson (s : String) : Except Json.Problem Value := do
  let cs := s.toList
  let (v, rest) ← Json.readValue (2 * cs.length + 2) (Json.skipSpace cs)
  if (Json.skipSpace rest).isEmpty then pure v else .error .malformed

end Stencil
