/-
# Tables

A table binds names to values and remembers the order in which the names came
in. Binding a name again changes its value and keeps its place, so a table made
from a list of pairs shows each name where it stood first with the value that
stood last.

Key definitions: `Table`, `Table.find?`, `Table.put`, `Table.putAbsent`,
`Table.ofList`, `Table.putAll`.
Key theorems: `Table.find?_put`, `Table.find?_put_ne`, `Table.find?_putAbsent`.
-/
namespace Stencil

/-- Names with their values, in the order in which the names came in. -/
abbrev Table (α : Type) := List (String × α)

namespace Table

variable {α : Type}

/-- The value of a name. -/
def find? (name : String) : Table α → Option α
  | [] => none
  | (n, a) :: t => if n = name then some a else find? name t

def has (name : String) (t : Table α) : Bool :=
  (find? name t).isSome

/-- A name bound to a value, at its old place if it has one. -/
def put (name : String) (a : α) : Table α → Table α
  | [] => [(name, a)]
  | (n, b) :: t => if n = name then (n, a) :: t else (n, b) :: put name a t

/-- A name bound to a value unless it is bound already. -/
def putAbsent (name : String) (a : α) (t : Table α) : Table α :=
  if has name t then t else t ++ [(name, a)]

/-- All pairs in order; later values win. -/
def putAll (t : Table α) (pairs : List (String × α)) : Table α :=
  pairs.foldl (fun t p => put p.1 p.2 t) t

def ofList (pairs : List (String × α)) : Table α :=
  putAll [] pairs

/-- A table without a name. -/
def erase (name : String) (t : Table α) : Table α :=
  t.filter fun p => p.1 ≠ name

def names (t : Table α) : List String :=
  t.map (·.1)

@[simp] theorem find?_put (name : String) (a : α) (t : Table α) :
    find? name (put name a t) = some a := by
  induction t with
  | nil => simp [put, find?]
  | cons p t ih =>
    by_cases h : p.1 = name <;> simp [put, find?, h, ih]

/-- Binding a name leaves the others alone. -/
theorem find?_put_ne {name other : String} (h : other ≠ name) (a : α) (t : Table α) :
    find? other (put name a t) = find? other t := by
  induction t with
  | nil => simp [put, find?, Ne.symm h]
  | cons p t ih =>
    by_cases hp : p.1 = name
    · have : p.1 ≠ other := fun e => h (by rw [← e, hp])
      simp [put, find?, hp, Ne.symm h]
    · simp [put, find?, hp, ih]

theorem mem_of_find? {name : String} {a : α} : ∀ {t : Table α}, find? name t = some a → (name, a) ∈ t
  | (n, b) :: t, h => by
    unfold find? at h
    by_cases hn : n = name
    · rw [if_pos hn] at h
      cases h
      exact hn ▸ List.mem_cons_self
    · rw [if_neg hn] at h
      exact List.mem_cons_of_mem _ (mem_of_find? h)

theorem mem_of_mem_put {name : String} {a : α} {p : String × α} :
    ∀ {t : Table α}, p ∈ put name a t → p = (name, a) ∨ p ∈ t
  | [], h => .inl (List.mem_singleton.mp h)
  | (n, b) :: t, h => by
    unfold put at h
    by_cases hn : n = name
    · rw [if_pos hn, hn] at h
      exact (List.mem_cons.mp h).imp_right (List.mem_cons_of_mem _)
    · rw [if_neg hn] at h
      rcases List.mem_cons.mp h with h | h
      · exact .inr (h ▸ List.mem_cons_self)
      · exact (mem_of_mem_put h).imp_right (List.mem_cons_of_mem _)

theorem mem_of_mem_putAbsent {name : String} {a : α} {p : String × α} {t : Table α}
    (h : p ∈ putAbsent name a t) : p = (name, a) ∨ p ∈ t := by
  unfold putAbsent at h
  by_cases hn : has name t
  · rw [if_pos hn] at h
    exact .inr h
  · rw [if_neg hn] at h
    exact (List.mem_append.mp h).symm.imp_left List.mem_singleton.mp

theorem mem_of_mem_putAll {p : String × α} : ∀ {pairs : List (String × α)} {t : Table α},
    p ∈ putAll t pairs → p ∈ t ∨ p ∈ pairs
  | [], _, h => .inl h
  | q :: pairs, t, h => by
    have h : p ∈ putAll (put q.1 q.2 t) pairs := h
    rcases mem_of_mem_putAll h with h | h
    · rcases mem_of_mem_put h with rfl | h
      · exact .inr List.mem_cons_self
      · exact .inl h
    · exact .inr (List.mem_cons_of_mem _ h)

theorem find?_append (name : String) (t u : Table α) :
    find? name (t ++ u) = (find? name t).or (find? name u) := by
  induction t with
  | nil => simp [find?]
  | cons p t ih => by_cases h : p.1 = name <;> simp [find?, h, ih]

/-- The first value bound to a name stays. -/
theorem find?_putAbsent (name : String) (a : α) (t : Table α) :
    find? name (putAbsent name a t) = some ((find? name t).getD a) := by
  unfold putAbsent has
  cases h : find? name t <;> simp [find?_append, find?, h]

theorem find?_putAbsent_ne {name other : String} (h : other ≠ name) (a : α) (t : Table α) :
    find? other (putAbsent name a t) = find? other t := by
  unfold putAbsent
  by_cases hn : has name t
  · rw [if_pos hn]
  · rw [if_neg hn, find?_append]
    simp [find?, Ne.symm h]

theorem isSome_find? {name : String} : ∀ {t : Table α}, (find? name t).isSome ↔ name ∈ names t
  | [] => by simp [find?, names]
  | (n, a) :: t => by
    have ih : (find? name t).isSome ↔ name ∈ names t := isSome_find?
    by_cases h : n = name
    · simp [find?, names, h]
    · have h' : name ≠ n := fun e => h e.symm
      rw [find?, if_neg h, ih]
      simp [names, h']

theorem nodup_putAbsent {t : Table α} (h : (names t).Nodup) (name : String) (a : α) :
    (names (putAbsent name a t)).Nodup := by
  unfold putAbsent has
  by_cases hn : (find? name t).isSome
  · rwa [if_pos hn]
  · rw [if_neg hn]
    have new : name ∉ names t := fun hm => hn (isSome_find?.mpr hm)
    have disjoint : ∀ n ∈ names t, ∀ m ∈ [name], n ≠ m := fun n hn m hm e =>
      new (List.mem_singleton.mp hm ▸ e ▸ hn)
    unfold names at h disjoint ⊢
    rw [List.map_append]
    exact List.nodup_append.mpr ⟨h, List.nodup_cons.mpr ⟨List.not_mem_nil, .nil⟩, disjoint⟩

end Table

/-- Names in the order of their code points. -/
def sortNames (names : List String) : List String :=
  names.mergeSort fun a b => decide (a ≤ b)

/-- Names in the order of their code points, each one once. -/
def sortedSet (names : List String) : List String :=
  sortNames names.eraseDups

end Stencil
