/-
# Configuration

An engine that takes its templates from directories is configured by a document
with five optional keys. Whatever else is in it, or is not of the right kind,
is an error that names its place in the document.

Directories in a file of configuration are meant from the directory of that
file.

Key definitions: `Config`, `Config.Problem`, `Config.Error`, `Config.ofDocument`,
`Config.load`, `Config.prepend`.
Key theorems: `Config.prepend_append`.
-/
import Stencil.Engine
import Stencil.Files.Directories
import Stencil.Value.Inspect
import Stencil.Yaml.Document

namespace Stencil

/-- Where templates come from, and the limits of the engine. -/
structure Config where
  directories : Directories := { searchPaths := [] }
  limits : Limits := {}

namespace Config

/-- What is wrong with a configuration. -/
inductive Problem where
  | notMapping (typeName : String)
  | unknownKeys (keys : List Value)
  | notText (typeName : String)
  | notTextList (typeName : String)
  | notInteger (typeName : String)
  | notPositive (n : Int)
  | unreadable
  | malformed
  deriving Repr

/-- What is wrong, and where. -/
structure Error where
  place : String
  problem : Problem
  deriving Repr

/-- A problem in words. -/
def Problem.text : Problem → String
  | notMapping typeName => "expected mapping, got " ++ typeName
  | unknownKeys keys => "unknown key(s): " ++ (Value.list keys).inspect
  | notText typeName => "expected str, got " ++ typeName
  | notTextList typeName => "expected list of str, got " ++ typeName
  | notInteger typeName => "expected int, got " ++ typeName
  | notPositive n => "must be >= 1, got " ++ toString n
  | unreadable => "cannot read config"
  | malformed => "invalid YAML"

def Error.message (e : Error) : String :=
  e.place ++ ": " ++ e.problem.text

/-- A configuration cannot be used, or the program stops over it. -/
inductive Refusal where
  | error (e : Error)
  | fault (f : Fault)
  deriving Repr

def fail {α : Type} (place : String) (problem : Problem) : Except Refusal α :=
  .error (.error ⟨place, problem⟩)

/-- The keys that a configuration may have. -/
def knownKeys : List String :=
  ["template_dirs", "extensions", "encoding", "max_depth", "macro_depth"]

/-- Keys that a configuration may not have are listed in order, if that can be done. -/
def refuseKeys {α : Type} (place : String) (keys : List Value) : Except Refusal α :=
  match Key.sort? keys with
  | none => .error (.fault .unorderedKeys)
  | some sorted =>
    if sorted.any Value.hasLong then .error (.fault .integerTooLong) else fail place (.unknownKeys sorted)

def isKnown : Value → Bool
  | .str s => knownKeys.contains s
  | _ => false

/-- The value of a key. -/
def find? (name : String) : List (Value × Document) → Option Document
  | [] => none
  | (.str n, d) :: entries => if n = name then some d else find? name entries
  | _ :: entries => find? name entries

/-- A text. -/
def readText (place : String) : Document → Except Refusal String
  | .scalar (.str s) => .ok s
  | d => fail place (.notText d.typeName)

/-- Texts, the first of them in some position of a list. -/
def readTexts (place : String) : Nat → List Document → Except Refusal (List String)
  | _, [] => .ok []
  | i, d :: ds => do
    let s ← readText (place ++ "[" ++ toString i ++ "]") d
    let more ← readTexts place (i + 1) ds
    pure (s :: more)

/-- A list of texts; one text may stand for the list of it. -/
def readTextList (place : String) : Document → Except Refusal (List String)
  | .scalar (.str s) => .ok [s]
  | .list items => readTexts place 0 items
  | d => fail place (.notTextList d.typeName)

/-- An integer above zero. -/
def readPositive (place : String) : Document → Except Refusal Int
  | .scalar (.int n) =>
    if 1 ≤ n then .ok n
    else if Number.isLong n then .error (.fault .integerTooLong)
    else fail place (.notPositive n)
  | d => fail place (.notInteger d.typeName)

/-- What a key has for its value, or else a default. -/
def readKey {α : Type} (place : String) (entries : List (Value × Document)) (name : String)
    (read : String → Document → Except Refusal α) (default : α) : Except Refusal α :=
  match find? name entries with
  | some d => read (place ++ "." ++ name) d
  | none => .ok default

/-- The configuration that some entries give. -/
def ofEntries (place : String) (entries : List (Value × Document)) : Except Refusal Config := do
  let unknown := (entries.map (·.1)).filter fun key => !isKnown key
  if !unknown.isEmpty then refuseKeys place unknown
  else
    let base : Config := {}
    let searchPaths ←
      readKey place entries "template_dirs" readTextList base.directories.searchPaths
    let extensions ← readKey place entries "extensions" readTextList base.directories.extensions
    let encoding ← readKey place entries "encoding" readText base.directories.encoding
    let nesting ← readKey place entries "max_depth" readPositive base.limits.nesting
    let macroDepth ← readKey place entries "macro_depth" readPositive base.limits.macroDepth
    pure ⟨⟨searchPaths, extensions, encoding⟩, ⟨nesting, macroDepth⟩⟩

/-- The configuration that a document gives; `place` names the document in messages. -/
def ofDocument (place : String) : Document → Except Refusal Config
  | .mapping entries => ofEntries place entries
  | d => fail place (.notMapping d.typeName)

/-- A configuration with further directories, to be searched before the others. -/
def prepend (c : Config) (searchPaths : List String) : Config :=
  { c with directories :=
    { c.directories with searchPaths := searchPaths ++ c.directories.searchPaths } }

theorem prepend_append (c : Config) (first second : List String) :
    (c.prepend second).prepend first = c.prepend (first ++ second) := by
  simp [prepend]

/-- A directory that is meant from the directory of a file. -/
def fromFile (file : Path) (directory : String) : String :=
  let p := Path.ofText directory
  if p.isAbsolute then directory else (file.parent.join p).text

/-- How deep a document of configuration is looked into: its values may be lists. -/
def depth : Nat := 2

/-- The document in a file; one without contents is an empty mapping. -/
def documentOf (place : String) (source : String) : Except Refusal Document :=
  match Document.parse depth source with
  | .error .malformed => fail place .malformed
  | .error (.fault f) => .error (.fault f)
  | .ok d => .ok (if d.isVoid then .mapping [] else d)

/-- The configuration in a file. -/
def load (t : FileTree) (file : String) : Except Refusal Config := do
  let path := Path.ofText file
  let place := path.text
  if file.contains '\x00' then .error (.fault .embeddedNul)
  else
    match t.follow path with
    | .file bytes =>
      match readText? .utf8 bytes with
      | none => .error (.fault .undecodable)
      | some source =>
        let config ← ofDocument place (← documentOf place source)
        let searchPaths := config.directories.searchPaths.map (fromFile path)
        pure { config with directories := { config.directories with searchPaths } }
    | _ => fail place .unreadable

/-- The engine of a configuration. -/
def engine (c : Config) (world : Surroundings) (t : FileTree) : Engine :=
  .standard world (c.directories.load t) c.limits

end Config

end Stencil
