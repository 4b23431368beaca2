/-
# The engine

An engine renders templates by name, or sources that have no name of their own,
with its functions, its filters and its limits. Each piece of work happens in a
session. Every error that leaves a rendering carries the name of a template: the
one it was attributed to where it arose, or else the one that was asked for.

Key definitions: `Limits`, `Engine`, `Engine.load`, `Engine.merge`,
`Engine.render`, `Engine.renderString`.
-/
import Stencil.Engine.Merge
import Stencil.Filter.Builtin
import Stencil.Renderer

namespace Stencil

/-- How many templates may be in progress at once, and how deep macros may call macros. -/
structure Limits where
  nesting : Int := 32
  macroDepth : Int := 64
  deriving DecidableEq, Repr

structure Engine where
  loader : Loader
  functions : Registry
  filters : Table Filter
  limits : Limits

namespace Engine

/-- An engine with the functions and filters that every template has. -/
def standard (world : Surroundings) (loader : Loader) (limits : Limits) : Engine :=
  ⟨loader, Registry.builtins world, Filter.builtins world, limits⟩

def renderer (e : Engine) : Renderer :=
  ⟨some e.functions, e.filters, e.limits.macroDepth⟩

/-- The template with a name. -/
def load (e : Engine) (name : String) : Work Session Template :=
  Session.load e.loader name

/-- A template with all that it leads to. -/
def mergeTemplate (e : Engine) (template : Template) : Work Session Merged :=
  Merge.merge e.loader e.limits.nesting (e.limits.nesting.toNat + 1) [] template

/-- The template with a name, with all that it leads to. -/
def merge (e : Engine) (name : String) : Work Session Merged :=
  Work.bind (e.load name) e.mergeTemplate

/-- The text of a merged template for a context; nothing is the empty context. -/
def renderMerged (e : Engine) (merged : Merged) (context : Value) : Except Failure String :=
  let context := match context with | .null => .object [] | v => v
  (e.renderer.render ⟨context, [], merged.macros⟩ merged.nodes).1

/-- The text of a template for a context. -/
def renderTemplate (e : Engine) (template : Template) (context : Value) : Work Session String :=
  Work.within template.name <| Work.bind (e.mergeTemplate template) fun merged =>
    fun s => (e.renderMerged merged context, s)

/-- The text of the template with a name. -/
def render (e : Engine) (name : String) (context : Value) : Work Session String :=
  Work.bind (e.load name) fun template => e.renderTemplate template context

/-- The text of a source, which goes by a name and is not kept. -/
def renderString (e : Engine) (source name : String) (context : Value) : Work Session String :=
  match Template.compile name source with
  | .ok template => e.renderTemplate template context
  | .error failure => Work.fail failure

end Engine

end Stencil
