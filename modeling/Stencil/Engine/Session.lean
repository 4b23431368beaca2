/-
# Loading templates

A loader maps the name of a template to its source. A session asks it for each
name until the template has been loaded and compiled, and never again after
that. It keeps account of the names that were asked for.

Work in a session gives a result or a failure, and the session goes on in
either case.

Key definitions: `Loader`, `Session`, `Work`, `Session.load`.
-/
import Stencil.Engine.Template

namespace Stencil

/-- The source of a template by its name. -/
abbrev Loader := String → Except Failure String

namespace Loader

/-- The sources of a table. -/
def ofTable (sources : Table String) : Loader := fun name =>
  match Table.find? name sources with
  | some source => .ok source
  | none => .error (.of (.templateNotFound name))

end Loader

structure Session where
  /-- The templates that were loaded. -/
  cache : Table Template
  /-- The names that the loader was asked for, the latest first. -/
  asked : List String

namespace Session

def fresh : Session := ⟨[], []⟩

end Session

/-- Work on a state that it leaves behind even when it fails. -/
def Work (σ α : Type) := σ → Except Failure α × σ

namespace Work

variable {σ τ α β : Type}

def pure (a : α) : Work σ α := fun s => (.ok a, s)

def fail (e : Failure) : Work σ α := fun s => (.error e, s)

/-- The state as it is. -/
def get : Work σ σ := fun s => (.ok s, s)

/-- A change of the state. -/
def change (f : σ → σ) : Work σ Unit := fun s => (.ok (), f s)

def bind (w : Work σ α) (f : α → Work σ β) : Work σ β := fun s =>
  match w s with
  | (.ok a, s) => f a s
  | (.error e, s) => (.error e, s)

/-- Work with an error, if any, attributed to a template. -/
def within (name : String) (w : Work σ α) : Work σ α := fun s =>
  match w s with
  | (.ok a, s) => (.ok a, s)
  | (.error e, s) => (.error (e.withTemplate name), s)

instance : Monad (Work σ) where
  pure := pure
  bind := bind

theorem bind_ok {w : Work σ α} {f : α → Work σ β} {s s' : σ} {a : α} (h : w s = (.ok a, s')) :
    (w >>= f) s = f a s' := by
  show bind w f s = _
  simp only [bind, h]

theorem bind_error {w : Work σ α} {f : α → Work σ β} {s s' : σ} {e : Failure}
    (h : w s = (.error e, s')) : (w >>= f) s = (.error e, s') := by
  show bind w f s = _
  simp only [bind, h]

theorem bind_pure_of {w : Work σ α} (g : α → β) {s s' : σ} {r : Except Failure α}
    (h : w s = (r, s')) : (w >>= fun a => Pure.pure (g a)) s = (r.map g, s') := by
  cases r with
  | ok a => exact bind_ok h
  | error e => exact bind_error h

instance : LawfulMonad (Work σ) :=
  LawfulMonad.mk' _
    (fun w => by
      funext s
      show bind w (fun a => pure a) s = w s
      unfold bind
      rcases w s with ⟨_ | _, _⟩ <;> rfl)
    (fun _ _ => rfl)
    (fun w f g => by
      funext s
      show bind (bind w f) g s = bind w (fun a => bind (f a) g) s
      unfold bind
      rcases w s with ⟨_ | _, _⟩ <;> rfl)

end Work

namespace Session

/-- The template with a name. A failed load is tried again at the next request. -/
def load (loader : Loader) (name : String) : Work Session Template := fun s =>
  match Table.find? name s.cache with
  | some template => (.ok template, s)
  | none =>
    let s := { s with asked := name :: s.asked }
    match loader name with
    | .error e => (.error (e.withTemplate name), s)
    | .ok source =>
      match Template.compile name source with
      | .error e => (.error e, s)
      | .ok template => (.ok template, { s with cache := Table.put name template s.cache })

end Session

end Stencil
