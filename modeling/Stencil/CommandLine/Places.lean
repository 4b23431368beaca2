/-
# Places that a request looks at

A request is carried out in files that are known beforehand. Which files it
needs shows while it is carried out: its configuration, its context, and for
each template that is asked for all places where that template may lie.

Key definitions: `Path.stages`, `Directories.places`, `Request.places`.
-/
import Stencil.CommandLine.Outcome

namespace Stencil

/-- The locations along a path, its end included. -/
def Path.stages (home : Location) (p : Path) : List Location :=
  (p.parts.foldl (fun ls part => Path.step (ls.headD []) part :: ls)
    [if p.isAbsolute then [] else home]).reverse

/-- The places where a template may lie. -/
def Directories.places (d : Directories) (home : Location) (name : String) : List Location :=
  d.searchPaths.flatMap fun path =>
    Directories.candidates ((Path.ofText path).locate home) name d.extensions

namespace CommandLine

/-- The places that a request looks at which asks for some templates. -/
def Request.places (t : FileTree) (r : Request) (asked : List String) : List Location :=
  let named := (r.config.toList ++ r.context.toList).flatMap fun file =>
    (Path.ofText file).stages t.home
  let templates :=
    match configOf t r with
    | .ok c => asked.flatMap (c.directories.places t.home)
    | .error _ => []
  named ++ templates

end CommandLine

end Stencil
