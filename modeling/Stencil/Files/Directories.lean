/-
# Templates in directories

Templates may lie in directories that are searched in order. In each of them
the name of a template is tried with every extension in order, and the first
file wins. A name that leads out of a directory is not looked for there any
further, whatever extension it is tried with.

Key definitions: `Directories`, `Directories.candidates`, `Directories.find`,
`Directories.load`.
-/
import Stencil.Engine.Session
import Stencil.Files.Encoding
import Stencil.Files.Tree

namespace Stencil

/-- Where templates are searched, with which extensions, and how they are encoded. -/
structure Directories where
  searchPaths : List String
  extensions : List String := ["", ".html", ".twig"]
  encoding : String := "utf-8"

namespace Directories

/-- The extensions before the first with a NUL in it. -/
def usable (extensions : List String) : List String :=
  extensions.takeWhile fun extension => !extension.contains '\x00'

/-- The places within a directory where a template may lie, up to the first that lies outside. -/
def candidates (base : Location) (name : String) (extensions : List String) : List Location :=
  (extensions.map fun extension => (Path.ofText (name ++ extension)).locate base).takeWhile
    (Location.isWithin · base)

/-- The first of some places where there is a file. -/
def firstFile (t : FileTree) : List Location → Except Failure (Option (Location × ByteArray))
  | [] => .ok none
  | l :: ls =>
    match t.follow (.ofLocation l) with
    | .file bytes => .ok (some (l, bytes))
    | .tooLong => .error (.fault .nameTooLong)
    | _ => firstFile t ls

/-- The file of a template in a directory. An extension with a NUL in it cannot be tried: if the
search comes to it, the program stops. -/
def searchIn (t : FileTree) (name : String) (extensions : List String) (base : Location) :
    Except Failure (Option (Location × ByteArray)) := do
  let usable := usable extensions
  let places := candidates base name usable
  match ← firstFile t places with
  | some found => pure (some found)
  | none =>
    if places.length = usable.length ∧ usable.length < extensions.length then
      .error (.fault .embeddedNul)
    else pure none

/-- The file of a template in the first directory that has one. -/
def search (t : FileTree) (name : String) (extensions : List String) :
    List String → Except Failure (Option (Location × ByteArray))
  | [] => .ok none
  | path :: paths =>
    if path.contains '\x00' then .error (.fault .embeddedNul)
    else do
      match ← searchIn t name extensions ((Path.ofText path).locate t.home) with
      | some found => pure (some found)
      | none => search t name extensions paths

/-- The file of a template; a name with a NUL has none. -/
def find (d : Directories) (t : FileTree) (name : String) :
    Except Failure (Option (Location × ByteArray)) :=
  if name.contains '\x00' then .ok none else search t name d.extensions d.searchPaths

/-- The source of a template. -/
def load (d : Directories) (t : FileTree) : Loader := fun name => do
  match ← d.find t name with
  | none => .error (.of (.templateNotFound name))
  | some (_, bytes) =>
    match Encoding.ofName? d.encoding with
    | none => .error (.fault (if d.encoding.contains '\x00' then .embeddedNul else .unknownEncoding))
    | some encoding =>
      match readText? encoding bytes with
      | some source => .ok source
      | none => .error (.of (.loadFailed name none))

end Directories

end Stencil
