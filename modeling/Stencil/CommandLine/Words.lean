/-
# Words of a command line

A word of a command line is an option if it starts with a hyphen and names one.
A long option may be cut short as long as it stays the only one that starts so;
a value may follow its name after an equals sign. A short option may have its
value attached, or further short options if it takes none. Negative numbers and
words with a space in them are no options unless they name one. After two
hyphens alone there are no options any more.

Key definitions: `Opt`, `OptionNames`, `Word`, `Word.read`, `Word.readAll`.
Key theorems: `Word.readAll_separator`.
-/
import Stencil.Text.Digits
import Stencil.Text.Split

namespace Stencil.CommandLine

/-- The options that there are. -/
inductive Opt where
  | help
  | version
  | templateDir
  | config
  | context
  | binding
  deriving DecidableEq, Repr

/-- Whether an option needs a value. -/
def Opt.takesValue : Opt → Bool
  | help => false
  | version => false
  | _ => true

/-- The names that options go by. -/
abbrev OptionNames := List (String × Opt)

inductive Word where
  | argument (text : String)
  /-- An option, perhaps with a text attached to its name. -/
  | option (isShort : Bool) (opt : Opt) (attached : Option (List Char))
  /-- It has the form of an option and names none. -/
  | unknown
  /-- It is short for more than one option. -/
  | ambiguous
  /-- Two hyphens. -/
  | separator
  deriving DecidableEq, Repr

namespace Word

/-- The head of a word up to its first equals sign, and what follows the sign. -/
def splitEquals (cs : List Char) : String × Option (List Char) :=
  let (head, tail) := Text.cut '=' cs
  (String.ofList head, tail)

/-- Whether a name is one of a long option. -/
def isLong (name : String) : Bool :=
  "--".toList.isPrefixOf name.toList

/-- The options that a word may mean that is not the name of one. -/
def meanings (names : OptionNames) (cs : List Char) : List Word :=
  if "--".toList.isPrefixOf cs then
    let (head, attached) := splitEquals cs
    (names.filter fun n => head.toList.isPrefixOf n.1.toList).map fun n =>
      .option (!isLong n.1) n.2 attached
  else
    (names.filter fun n => n.1.toList = cs.take 2).map fun n =>
      .option true n.2 (some (cs.drop 2))

def isDecimal (c : Char) : Bool :=
  (Text.decimalValue? c).isSome

/-- A hyphen and digits, perhaps with a point before the last run of them. -/
def isNegativeNumber (cs : List Char) : Bool :=
  match cs with
  | '-' :: ds =>
    let ds := if ds.getLast? = some '\n' then ds.dropLast else ds
    match ds.dropWhile isDecimal with
    | [] => !ds.isEmpty
    | '.' :: fraction => !fraction.isEmpty && fraction.all isDecimal
    | _ => false
  | _ => false

/-- What a word is that starts with a hyphen and is longer than that. -/
def readHyphen (names : OptionNames) (s : String) : Word :=
  let cs := s.toList
  let (head, attached) := splitEquals cs
  match names.lookup s with
  | some opt => .option (!isLong s) opt none
  | none =>
    match (if attached.isSome then names.lookup head else none) with
    | some opt => .option (!isLong head) opt attached
    | none =>
      match meanings names cs with
      | [word] => word
      | _ :: _ :: _ => .ambiguous
      | [] => if isNegativeNumber cs || cs.contains ' ' then .argument s else .unknown

/-- What a word is. -/
def read (names : OptionNames) (s : String) : Word :=
  match s.toList with
  | '-' :: _ :: _ => readHyphen names s
  | _ => .argument s

/-- What words are, where nothing after two hyphens is an option. -/
def readAll (names : OptionNames) : List String → List Word
  | [] => []
  | s :: rest =>
    if s = "--" then .separator :: rest.map .argument
    else read names s :: readAll names rest

theorem readAll_separator (names : OptionNames) (rest : List String) :
    readAll names ("--" :: rest) = .separator :: rest.map .argument := by
  simp [readAll]

end Word

end Stencil.CommandLine
