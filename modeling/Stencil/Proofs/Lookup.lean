/-
# What names lead to

In a session a name leads to the template that was kept for it, or else to what
the source that the loader has for it compiles to. Loading a template gives
just this, and it leaves what all names lead to as it was. So work on templates
can tell sessions apart only by what names lead to in them.

Key definitions: `Session.fetch`, `Session.answer`, `Session.loads`.
Key theorems: `Session.load_result`, `Session.answer_load`, `Session.answer_loads`.
-/
import Stencil.Engine.Session

namespace Stencil.Session

/-- What the loader's source for a name compiles to. -/
def fetch (loader : Loader) (name : String) : Except Failure Template :=
  match loader name with
  | .error e => .error (e.withTemplate name)
  | .ok source => Template.compile name source

/-- What a name leads to. -/
def answer (loader : Loader) (s : Session) (name : String) : Except Failure Template :=
  match Table.find? name s.cache with
  | some template => .ok template
  | none => fetch loader name

theorem answer_of_find {loader : Loader} {s : Session} {name : String} {t : Template}
    (h : Table.find? name s.cache = some t) : s.answer loader name = .ok t := by
  simp [answer, h]

theorem answer_of_find_none {loader : Loader} {s : Session} {name : String}
    (h : Table.find? name s.cache = none) : s.answer loader name = fetch loader name := by
  simp [answer, h]

theorem load_of_find {loader : Loader} {s : Session} {name : String} {t : Template}
    (h : Table.find? name s.cache = some t) : load loader name s = (.ok t, s) := by
  simp [load, h]

/-- A name that no template is kept for is asked for, and kept if there is a template. -/
theorem load_of_find_none {loader : Loader} {s : Session} {name : String}
    (h : Table.find? name s.cache = none) :
    load loader name s = (fetch loader name,
      ⟨match fetch loader name with | .ok t => Table.put name t s.cache | .error _ => s.cache,
        name :: s.asked⟩) := by
  unfold load fetch
  rw [h]
  cases loader name with
  | error e => rfl
  | ok source => cases hc : Template.compile name source <;> simp only [hc]

theorem load_result (loader : Loader) (name : String) (s : Session) :
    (load loader name s).1 = s.answer loader name := by
  cases h : Table.find? name s.cache with
  | some t => rw [load_of_find h, answer_of_find h]
  | none => rw [load_of_find_none h, answer_of_find_none h]

/-- Loading changes nothing about what names lead to. -/
theorem answer_load (loader : Loader) (name : String) (s : Session) :
    (load loader name s).2.answer loader = s.answer loader := by
  cases h : Table.find? name s.cache with
  | some t => rw [load_of_find h]
  | none =>
    rw [load_of_find_none h]
    funext other
    cases hf : fetch loader name with
    | error e => rfl
    | ok t =>
      by_cases ho : other = name
      · subst ho
        rw [answer_of_find_none h, hf]
        exact answer_of_find (Table.find?_put other t s.cache)
      · simp only [answer, Table.find?_put_ne ho]

/-- The session after the templates with some names have been loaded, one after the other. -/
def loads (loader : Loader) : List String → Session → Session
  | [], s => s
  | name :: names, s => loads loader names (load loader name s).2

theorem loads_append (loader : Loader) (names names' : List String) : ∀ s,
    loads loader (names ++ names') s = loads loader names' (loads loader names s) := by
  induction names with
  | nil => exact fun _ => rfl
  | cons name names ih => exact fun s => ih _

theorem answer_loads (loader : Loader) (names : List String) : ∀ s,
    (loads loader names s).answer loader = s.answer loader := by
  induction names with
  | nil => exact fun _ => rfl
  | cons name names ih => exact fun s => (ih _).trans (answer_load loader name s)

end Stencil.Session
