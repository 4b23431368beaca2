/-
# Tables of distinct names

Where each name stands once in a table, what is found under a name is its one
entry, wherever that stands. Binding names keeps a table so. A table of distinct
names that is put over another one goes before it, and one that is put over
nothing is read as it stands.

A table that fills the gaps of another one goes behind it, and it makes no
difference if it fills the gaps of an empty table first. Two tables with the same
names in the same places, and with values that are related, stay so whatever is
bound in both.

Key definitions: `Table.Matched`.
Key theorems: `Table.nodup_putAll`, `Table.find?_putAll`, `Table.find?_ofList`,
`Table.find?_zip`, `Table.fill_fill`, `Table.Matched.putAll`.
-/
import Mathlib.Data.List.Forall2
import Stencil.Table

namespace Stencil.Table

variable {α : Type} {name : String}

theorem find?_eq_none {t : Table α} : find? name t = none ↔ name ∉ names t := by
  rw [← Option.not_isSome_iff_eq_none, isSome_find?]

theorem nodup_put (a : α) : ∀ {t : Table α}, (names t).Nodup → (names (put name a t)).Nodup
  | [], _ => by simp [put, names]
  | (n, b) :: t, h => by
    obtain ⟨new, rest⟩ := List.nodup_cons.mp h
    by_cases same : n = name
    · rw [put, if_pos same]
      exact h
    · rw [put, if_neg same]
      have absent : n ∉ names (put name a t) := by
        intro member
        have found := isSome_find?.mpr member
        rw [find?_put_ne same, isSome_find?] at found
        exact new found
      exact List.nodup_cons.mpr ⟨absent, nodup_put a rest⟩

theorem nodup_putAll : ∀ (pairs : List (String × α)) {t : Table α}, (names t).Nodup →
    (names (putAll t pairs)).Nodup
  | [], _, h => h
  | p :: pairs, _, h => nodup_putAll pairs (nodup_put p.2 h)

/-- The later table goes before the earlier one. -/
theorem find?_putAll : ∀ (u : Table α) {t : Table α}, (names u).Nodup →
    find? name (putAll t u) = (find? name u).or (find? name t)
  | [], _, _ => rfl
  | (n, a) :: u, t, h => by
    obtain ⟨new, rest⟩ := List.nodup_cons.mp h
    show find? name (putAll (put n a t) u) = _
    rw [find?_putAll u rest, find?]
    by_cases same : n = name
    · subst same
      simp [find?_eq_none.mpr new]
    · have other : name ≠ n := fun e => same e.symm
      simp [same, find?_put_ne other]

theorem find?_ofList {pairs : List (String × α)} (distinct : (names pairs).Nodup) :
    find? name (ofList pairs) = find? name pairs :=
  (find?_putAll pairs distinct).trans (by simp [find?])

/-- Distinct names with values by place: under each name stands the value of its place. -/
theorem find?_zip : ∀ {ns : List String} {as : List α}, ns.Nodup → ns.length = as.length →
    ∀ {i : Nat} {a : α}, ns[i]? = some name → as[i]? = some a → find? name (ns.zip as) = some a
  | [], _, _, _, _, _, there, _ => by simp at there
  | _ :: _, [], _, same, _, _, _, _ => by simp at same
  | n :: ns, b :: as, distinct, same, 0, a, there, value => by
    simp only [List.getElem?_cons_zero, Option.some.injEq] at there value
    simp [find?, there, value]
  | n :: ns, b :: as, distinct, same, i + 1, a, there, value => by
    obtain ⟨new, distinct⟩ := List.nodup_cons.mp distinct
    have other : n ≠ name := fun e => new (e ▸ List.mem_of_getElem? there)
    rw [List.zip_cons_cons, find?, if_neg other]
    exact find?_zip distinct (Nat.succ.inj same) there value

theorem names_zip {ns : List String} {as : List α} (same : ns.length = as.length) :
    names (ns.zip as) = ns :=
  List.map_fst_zip (Nat.le_of_eq same)

/-! ### Filling gaps -/

/-- A table with all entries of another one whose names are free. -/
def fill (t u : Table α) : Table α :=
  u.foldl (fun t p => putAbsent p.1 p.2 t) t

theorem fill_append (t u v : Table α) : fill t (u ++ v) = fill (fill t u) v :=
  List.foldl_append

theorem find?_fill (name : String) : ∀ u t : Table α,
    find? name (fill t u) = (find? name t).or (find? name u)
  | [], t => by simp [fill, find?]
  | (n, a) :: u, t => by
    show find? name (fill (putAbsent n a t) u) = _
    rw [find?_fill name u]
    by_cases same : n = name
    · subst same
      cases h : find? n t <;> simp [find?_putAbsent, find?, h]
    · have other : name ≠ n := fun e => same e.symm
      simp [find?_putAbsent_ne other, find?, same]

theorem fill_putAbsent (t u : Table α) (n : String) (a : α) :
    fill t (putAbsent n a u) = putAbsent n a (fill t u) := by
  cases held : find? n u with
  | some b =>
    have full : (find? n (fill t u)).isSome := by simp [find?_fill, held]
    simp [putAbsent, has, held, full]
  | none =>
    have last : putAbsent n a u = u ++ [(n, a)] := by simp [putAbsent, has, held]
    rw [last]
    exact fill_append t u [(n, a)]

/-- The gaps of a table may be filled by way of another one. -/
theorem fill_fill (t u : Table α) : ∀ v : Table α, fill t (fill u v) = fill (fill t u) v := by
  intro v
  induction v generalizing u with
  | nil => rfl
  | cons p v ih =>
    calc fill t (fill u (p :: v)) = fill (fill t (putAbsent p.1 p.2 u)) v := ih _
      _ = fill (fill t u) (p :: v) := by rw [fill_putAbsent]; rfl

/-! ### Tables side by side -/

/-- The same names in the same places, with values that are related. -/
def Matched {β : Type} (R : α → β → Prop) : Table α → Table β → Prop :=
  List.Forall₂ fun p q => p.1 = q.1 ∧ R p.2 q.2

namespace Matched

variable {β : Type} {R : α → β → Prop} {t : Table α} {u : Table β}

theorem names (h : Matched R t u) : Table.names t = Table.names u := by
  induction h with
  | nil => rfl
  | cons first _ ih => exact congr (congrArg List.cons first.1) ih

theorem put {name : String} {a : α} {b : β} (related : R a b) (h : Matched R t u) :
    Matched R (Table.put name a t) (Table.put name b u) := by
  induction h with
  | nil => exact .cons ⟨rfl, related⟩ .nil
  | @cons p q t u first rest ih =>
    obtain ⟨m, c⟩ := p
    obtain ⟨n, d⟩ := q
    obtain ⟨rfl, values⟩ := first
    unfold Table.put
    by_cases same : m = name
    · rw [if_pos same, if_pos same]
      exact .cons ⟨rfl, related⟩ rest
    · rw [if_neg same, if_neg same]
      exact .cons ⟨rfl, values⟩ ih

theorem putAll {ps : Table α} {qs : Table β} (later : Matched R ps qs) :
    ∀ {t : Table α} {u : Table β}, Matched R t u →
      Matched R (Table.putAll t ps) (Table.putAll u qs) := by
  induction later with
  | nil => exact id
  | @cons p q ps qs first rest ih =>
    intro t u h
    obtain ⟨m, c⟩ := p
    obtain ⟨n, d⟩ := q
    obtain ⟨rfl, values⟩ := first
    exact ih (h.put values)

end Matched

end Stencil.Table
