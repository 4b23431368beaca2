/-
# File trees

A tree holds the files that are there, each at its location, and the place that
relative paths start from. Directories are there because something lies in
them or because they are named; nothing else is.

A walk goes from directory to directory along the names of a path; two dots go
back to where the walk came from, and a name in what is no directory leads
nowhere.

Key definitions: `FileTree`, `Entry`, `FileTree.isDirectory`, `FileTree.walk`,
`FileTree.follow`.
-/
import Stencil.Files.Path

namespace Stencil

/-- What is found at the end of a path. -/
inductive Entry where
  | file (bytes : ByteArray)
  | directory
  | absent
  /-- The path, or a name on the way, is longer than such can be. -/
  | tooLong

structure FileTree where
  home : Location
  files : List (Location × ByteArray)
  directories : List Location

namespace FileTree

/-- The most bytes that a name may have, and those that a path may have. -/
def nameLimit : Nat := 255
def pathLimit : Nat := 4095

/-- Directories lie above files, above other directories and above the place to start from. -/
def isDirectory (t : FileTree) (l : Location) : Bool :=
  t.home.isWithin l || t.directories.any (Location.isWithin · l) ||
    t.files.any fun f => Location.isWithin f.1.dropLast l

/-- What there is at a location. -/
def entry (t : FileTree) (l : Location) : Entry :=
  match t.files.lookup l with
  | some bytes => .file bytes
  | none => if t.isDirectory l then .directory else .absent

/-- What a walk comes to that goes on from a location. -/
def walk (t : FileTree) (l : Location) : List String → Entry
  | [] => t.entry l
  | part :: parts =>
    if !t.isDirectory l then .absent
    else if nameLimit < part.utf8ByteSize then .tooLong
    else t.walk (Path.step l part) parts

/-- What a path leads to. -/
def follow (t : FileTree) (p : Path) : Entry :=
  if pathLimit < p.text.utf8ByteSize then .tooLong
  else t.walk (if p.isAbsolute then [] else t.home) p.parts

end FileTree

end Stencil
