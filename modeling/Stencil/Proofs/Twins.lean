/-
# Sessions that cannot be told apart

Two engines that differ in their loaders only, in sessions in which all names
lead to the same templates, do the same: whatever they are asked for, they give
the same result or fail in the same way, and they request the same templates on
the way. What differs is which of these requests a loader gets to see, as a
session answers for the templates that it keeps.

Key definitions: `Session.keeps`, `Session.fetches`, `Alike`.
Key theorems: `Session.asked_loads`, `Session.fetches_eq_filter`,
`Engine.render_alike`, `Engine.renderString_alike`.
-/
import Stencil.Proofs.Determinism

namespace Stencil

namespace Session

/-- Whether a template is kept for a name. -/
def keeps (s : Session) (name : String) : Bool :=
  Table.has name s.cache

/-- The names that a loader is asked for when templates are loaded one after the other. -/
def fetches (loader : Loader) : List String → Session → List String
  | [], _ => []
  | name :: names, s =>
    if s.keeps name then fetches loader names (load loader name s).2
    else name :: fetches loader names (load loader name s).2

variable {loader loader' : Loader} {s s' : Session}

theorem load_of_keeps {name : String} (h : s.keeps name = true) : (load loader name s).2 = s := by
  obtain ⟨t, found⟩ := Option.isSome_iff_exists.mp h
  rw [load_of_find found]

theorem find?_of_not_keeps {name : String} (h : ¬s.keeps name = true) :
    Table.find? name s.cache = none := by
  cases found : Table.find? name s.cache with
  | none => rfl
  | some t => exact absurd (by simp [keeps, Table.has, found]) h

/-- A template is kept once it has been loaded. -/
theorem keeps_load (name other : String) :
    (load loader name s).2.keeps other =
      (s.keeps other || (decide (other = name) && (s.answer loader name).isOk)) := by
  by_cases h : s.keeps name = true
  · rw [load_of_keeps h]
    by_cases ho : other = name
    · subst ho
      simp [h]
    · simp [ho]
  · have missing := find?_of_not_keeps h
    rw [load_of_find_none missing, answer_of_find_none missing]
    cases fetch loader name with
    | error e => simp [keeps, Except.isOk, Except.toBool]
    | ok t =>
      by_cases ho : other = name
      · subst ho
        simp [keeps, Table.has, Except.isOk, Except.toBool]
      · simp [keeps, Table.has, Table.find?_put_ne ho, ho]

/-- The account of the names that were asked for goes on with those that are fetched. -/
theorem asked_loads (names : List String) : ∀ s,
    (loads loader names s).asked = (fetches loader names s).reverse ++ s.asked := by
  induction names with
  | nil => exact fun _ => rfl
  | cons name names ih =>
    intro s
    rw [loads, ih, fetches]
    by_cases h : s.keeps name = true
    · rw [if_pos h, load_of_keeps h]
    · rw [if_neg h, load_of_find_none (find?_of_not_keeps h)]
      simp

/-- **A session that keeps more is asked for less**, and for nothing else. -/
theorem fetches_eq_filter {kept : String → Bool} (names : List String) : ∀ {s s' : Session},
    s.answer loader = s'.answer loader' → (∀ name, kept name = true → s.keeps name = true) →
    (∀ name, s.keeps name = (kept name || s'.keeps name)) →
    fetches loader names s = (fetches loader' names s').filter fun name => !kept name := by
  induction names with
  | nil => exact fun _ _ _ => rfl
  | cons name names ih =>
    intro s s' same old more
    have same' : (load loader name s).2.answer loader = (load loader' name s').2.answer loader' := by
      rw [answer_load, answer_load, same]
    have more' (other : String) : (load loader name s).2.keeps other =
        (kept other || (load loader' name s').2.keeps other) := by
      rw [keeps_load, keeps_load, more, same, Bool.or_assoc]
    have old' (other : String) (h : kept other = true) : (load loader name s).2.keeps other = true := by
      rw [keeps_load, old other h, Bool.true_or]
    have rest := ih same' old' more'
    rw [fetches, fetches, rest]
    by_cases hk : kept name = true
    · rw [if_pos (old name hk)]
      by_cases hs : s'.keeps name = true
      · rw [if_pos hs]
      · rw [if_neg hs, List.filter_cons_of_neg (by simp [hk])]
    · have both : s.keeps name = s'.keeps name := by simp [more name, hk]
      rw [both]
      by_cases hs : s'.keeps name = true
      · rw [if_pos hs, if_pos hs]
      · rw [if_neg hs, if_neg hs, List.filter_cons_of_pos (by simp [hk])]

end Session

open Session Merging

/-- Two pieces of work give the same and request the same templates, in sessions in which names
lead to the same. -/
def Alike (loader loader' : Loader) {α : Type} (w w' : Work Session α) : Prop :=
  ∀ s s', s.answer loader = s'.answer loader' →
    ∃ r names, w s = (r, loads loader names s) ∧ w' s' = (r, loads loader' names s')

namespace Alike

variable {loader loader' : Loader} {α β : Type}

/-- Work that has a result already. -/
theorem result (r : Except Failure α) : Alike loader loader' (fun s => (r, s)) (fun s => (r, s)) :=
  fun _ _ _ => ⟨r, [], rfl, rfl⟩

theorem load (name : String) :
    Alike loader loader' (Session.load loader name) (Session.load loader' name) :=
  fun s s' same => ⟨s.answer loader name, [name], Prod.ext (load_result loader name s) rfl,
    Prod.ext ((load_result loader' name s').trans (by rw [same])) rfl⟩

theorem bind {w w' : Work Session α} {f f' : α → Work Session β} (h : Alike loader loader' w w')
    (hf : ∀ a, Alike loader loader' (f a) (f' a)) :
    Alike loader loader' (Work.bind w f) (Work.bind w' f') := fun s s' same => by
  obtain ⟨r, names, run, run'⟩ := h s s' same
  cases r with
  | error e => exact ⟨.error e, names, Work.bind_error run, Work.bind_error run'⟩
  | ok a =>
    have same' : (loads loader names s).answer loader = (loads loader' names s').answer loader' := by
      rw [answer_loads, answer_loads, same]
    obtain ⟨r, names', more, more'⟩ := hf a _ _ same'
    refine ⟨r, names ++ names', ?_, ?_⟩
    · rw [loads_append]
      exact (Work.bind_ok run).trans more
    · rw [loads_append]
      exact (Work.bind_ok run').trans more'

theorem within {w w' : Work Session α} (h : Alike loader loader' w w') (name : String) :
    Alike loader loader' (Work.within name w) (Work.within name w') := fun s s' same => by
  obtain ⟨r, names, run, run'⟩ := h s s' same
  cases r with
  | error e =>
    exact ⟨.error (e.withTemplate name), names, by simp only [Work.within, run],
      by simp only [Work.within, run']⟩
  | ok a => exact ⟨.ok a, names, by simp only [Work.within, run], by simp only [Work.within, run']⟩

/-- Pieces of work that give what one rule says, where the rule says one thing only. -/
theorem of_gives {w w' : Work Session α}
    {rule : (String → Except Failure Template) → List Event → Except Failure α → Prop}
    (h : ∀ look, Gives loader look w (rule look)) (h' : ∀ look, Gives loader' look w' (rule look))
    (det : ∀ {look es r es' r'}, rule look es r → rule look es' r' → es' = es ∧ r' = r) :
    Alike loader loader' w w' := fun s s' same => by
  obtain ⟨es, r, run, held⟩ := h _ s rfl
  obtain ⟨es', r', run', held'⟩ := h' _ s' same.symm
  obtain ⟨rfl, rfl⟩ := det held held'
  exact ⟨r', requests es', run, run'⟩

end Alike

namespace Engine

variable (e : Engine) (loader : Loader)

theorem load_alike (name : String) :
    Alike e.loader loader (e.load name) ({ e with loader }.load name) :=
  .load name

theorem mergeTemplate_alike (t : Template) :
    Alike e.loader loader (e.mergeTemplate t) ({ e with loader }.mergeTemplate t) :=
  .of_gives (fun _ => e.mergeTemplate_gives t) (fun _ => { e with loader }.mergeTemplate_gives t)
    fun h h' => h.det h'

theorem merge_alike (name : String) :
    Alike e.loader loader (e.merge name) ({ e with loader }.merge name) :=
  (e.load_alike loader name).bind (e.mergeTemplate_alike loader)

theorem renderTemplate_alike (t : Template) (context : Value) :
    Alike e.loader loader (e.renderTemplate t context) ({ e with loader }.renderTemplate t context) :=
  ((e.mergeTemplate_alike loader t).bind fun _ => .result _).within t.name

/-- A template is rendered alike by engines with other loaders. -/
theorem render_alike (name : String) (context : Value) :
    Alike e.loader loader (e.render name context) ({ e with loader }.render name context) :=
  (e.load_alike loader name).bind fun t => e.renderTemplate_alike loader t context

/-- A source is rendered alike by engines with other loaders. -/
theorem renderString_alike (source name : String) (context : Value) :
    Alike e.loader loader (e.renderString source name context)
      ({ e with loader }.renderString source name context) := by
  unfold renderString
  cases Template.compile name source with
  | ok t => exact e.renderTemplate_alike loader t context
  | error f => exact .result (.error f)

end Engine

end Stencil
