/-
# Escaped text

Five characters mean something of their own in markup. Escaping puts an entity in
the place of each, all in one pass, so that no entity is escaped again. An escaped
text holds no bracket and no quote, and an ampersand only where an entity begins.
Read back in one pass from left to right, with each entity giving way to its
character, it is the given text, also where that held entities or parts of them.

The pass that reads back never stops within an entity: the ampersand of one is its
first character and its only one, so what escaping made of one code point is read
as a whole (`unescape_escapePoint`), and the rest is induction on the text.

Key definitions: `Filter.entities`, `Filter.unescape`, `Filter.Opens`.
Key theorems: `Filter.unescape_escapePoints`, `Filter.opens_escapePoints`,
`Filter.escape_safe_and_lossless`.
-/
import Mathlib.Data.List.Infix
import Stencil.Filter.Builtin

namespace Stencil.Filter

/-- A word of characters in a text. -/
def spelled (word : String) : List CodePoint :=
  word.toList.map .char

/-- The five entities, each with the character it stands for. -/
def entities : List (String × Char) :=
  [("&amp;", '&'), ("&lt;", '<'), ("&gt;", '>'), ("&quot;", '"'), ("&#039;", '\'')]

/-- The entity that a text begins with. -/
def entityAt? (ps : List CodePoint) : Option (String × Char) :=
  entities.find? fun e => (spelled e.1).isPrefixOf ps

/-- A text read from left to right, where every entity gives way to its character; `skip` code
points of an entity are still to be passed over. -/
def unescapeFrom : Nat → List CodePoint → List CodePoint
  | _, [] => []
  | skip + 1, _ :: ps => unescapeFrom skip ps
  | 0, p :: ps =>
    match entityAt? (p :: ps) with
    | some e => .char e.2 :: unescapeFrom (e.1.length - 1) ps
    | none => p :: unescapeFrom 0 ps

/-- A text with the characters in place of the entities. -/
def unescape (ps : List CodePoint) : List CodePoint :=
  unescapeFrom 0 ps

/-- No bracket and no quote stands in a text. -/
def Unmarked (ps : List CodePoint) : Prop :=
  ∀ c ∈ ['<', '>', '"', '\''], .char c ∉ ps

/-- Every ampersand in a text begins an entity. -/
def Opens (ps : List CodePoint) : Prop :=
  ∀ rest, .char '&' :: rest <:+ ps → ∃ e ∈ entities, spelled e.1 <+: .char '&' :: rest

/-! ### One code point -/

/-- A code point is escaped to the entity that stands for it, or it stays and means nothing. -/
theorem escapePoint_cases (p : CodePoint) :
    (∃ e ∈ entities, p = .char e.2 ∧ escapePoint p = spelled e.1) ∨
      (escapePoint p = [p] ∧ p ≠ .char '&' ∧ Unmarked [p]) := by
  cases p with
  | half n => exact .inr ⟨rfl, by simp, by simp [Unmarked]⟩
  | char c =>
    by_cases special : c ∈ entities.map Prod.snd
    · left
      simp only [entities, List.map_cons, List.map_nil, List.mem_cons, List.not_mem_nil,
        or_false] at special
      rcases special with rfl | rfl | rfl | rfl | rfl
      · exact ⟨("&amp;", '&'), by simp [entities], rfl, rfl⟩
      · exact ⟨("&lt;", '<'), by simp [entities], rfl, rfl⟩
      · exact ⟨("&gt;", '>'), by simp [entities], rfl, rfl⟩
      · exact ⟨("&quot;", '"'), by simp [entities], rfl, rfl⟩
      · exact ⟨("&#039;", '\''), by simp [entities], rfl, rfl⟩
    · right
      simp only [entities, List.map_cons, List.map_nil, List.mem_cons, List.not_mem_nil, or_false,
        not_or] at special
      obtain ⟨amp, lt, gt, quot, apos⟩ := special
      have plain : escapeChar c = [c] := by simp [escapeChar, amp, lt, gt, quot, apos]
      refine ⟨by rw [escapePoint, plain]; rfl, by simpa using amp, ?_⟩
      simp only [Unmarked, List.mem_singleton, CodePoint.char.injEq]
      intro mark among same
      subst same
      simp [lt, gt, quot, apos] at among

/-- An entity has one ampersand, which is its first character, and no bracket and no quote. -/
theorem entity_shape {e : String × Char} (known : e ∈ entities) :
    ∃ tail, spelled e.1 = .char '&' :: tail ∧ .char '&' ∉ tail ∧ Unmarked (spelled e.1) := by
  simp only [entities, List.mem_cons, List.not_mem_nil, or_false] at known
  rcases known with rfl | rfl | rfl | rfl | rfl <;>
    exact ⟨_, rfl, by decide, by simp [Unmarked, spelled]⟩

theorem unmarked_append {ps qs : List CodePoint} :
    Unmarked (ps ++ qs) ↔ Unmarked ps ∧ Unmarked qs := by
  simp only [Unmarked, List.mem_append, not_or]
  exact ⟨fun h => ⟨fun c mark => (h c mark).1, fun c mark => (h c mark).2⟩,
    fun h c mark => ⟨h.1 c mark, h.2 c mark⟩⟩

theorem unmarked_escapePoint (p : CodePoint) : Unmarked (escapePoint p) := by
  rcases escapePoint_cases p with ⟨e, known, -, made⟩ | ⟨made, -, unmarked⟩
  · obtain ⟨-, -, -, unmarked⟩ := entity_shape known
    rwa [made]
  · rwa [made]

/-! ### Ampersands -/

theorem opens_nil : Opens [] := by
  intro rest within
  simp at within

theorem Opens.cons {p : CodePoint} {ps : List CodePoint}
    (first : p = .char '&' → ∃ e ∈ entities, spelled e.1 <+: p :: ps) (others : Opens ps) :
    Opens (p :: ps) := by
  intro rest within
  rcases List.suffix_cons_iff.mp within with whole | later
  · obtain ⟨rfl, rfl⟩ := List.cons.inj whole
    exact first rfl
  · exact others rest later

/-- Text without an ampersand may stand in front. -/
theorem Opens.append {ps qs : List CodePoint} (plain : .char '&' ∉ ps) (others : Opens qs) :
    Opens (ps ++ qs) := by
  induction ps with
  | nil => exact others
  | cons p ps ih =>
    rw [List.mem_cons, not_or] at plain
    exact .cons (fun same => absurd same.symm plain.1) (ih plain.2)

theorem opens_escapePoint (p : CodePoint) {qs : List CodePoint} (others : Opens qs) :
    Opens (escapePoint p ++ qs) := by
  rcases escapePoint_cases p with ⟨e, known, -, made⟩ | ⟨made, other, -⟩
  · obtain ⟨tail, shape, plain, -⟩ := entity_shape known
    have entity : spelled e.1 <+: .char '&' :: (tail ++ qs) := by
      rw [shape]
      exact List.prefix_append (.char '&' :: tail) qs
    rw [made, shape, List.cons_append]
    exact .cons (fun _ => ⟨e, known, entity⟩) (.append plain others)
  · rw [made]
    exact .cons (fun same => absurd same other) others

/-- **An ampersand in an escaped text begins an entity.** -/
theorem opens_escapePoints (ps : List CodePoint) : Opens (escapePoints ps) := by
  induction ps with
  | nil => exact opens_nil
  | cons p ps ih => exact opens_escapePoint p ih

/-- **There is no bracket and no quote in an escaped text.** -/
theorem unmarked_escapePoints (ps : List CodePoint) : Unmarked (escapePoints ps) := by
  induction ps with
  | nil => simp [escapePoints, Unmarked]
  | cons p ps ih => exact unmarked_append.mpr ⟨unmarked_escapePoint p, ih⟩

/-! ### Reading back -/

/-- No entity begins with another. -/
theorem entityAt?_spelled {e : String × Char} (known : e ∈ entities) (rest : List CodePoint) :
    entityAt? (spelled e.1 ++ rest) = some e := by
  simp only [entities, List.mem_cons, List.not_mem_nil, or_false] at known
  rcases known with rfl | rfl | rfl | rfl | rfl <;> rfl

theorem entityAt?_of_ne {p : CodePoint} (other : p ≠ .char '&') (rest : List CodePoint) :
    entityAt? (p :: rest) = none := by
  refine List.find?_eq_none.mpr fun e known begins => ?_
  obtain ⟨tail, shape, -, -⟩ := entity_shape known
  rw [shape, List.isPrefixOf_iff_prefix, List.cons_prefix_cons] at begins
  exact other begins.1.symm

theorem unescapeFrom_append (ps qs : List CodePoint) :
    unescapeFrom ps.length (ps ++ qs) = unescape qs := by
  induction ps with
  | nil => rfl
  | cons p ps ih => exact ih

/-- What escaping made of a code point is read back as that code point. -/
theorem unescape_escapePoint (p : CodePoint) (rest : List CodePoint) :
    unescape (escapePoint p ++ rest) = p :: unescape rest := by
  rcases escapePoint_cases p with ⟨e, known, rfl, made⟩ | ⟨made, other, -⟩
  · obtain ⟨tail, shape, -, -⟩ := entity_shape known
    have found := entityAt?_spelled known rest
    have length : e.1.length - 1 = tail.length := by
      have whole := congrArg List.length shape
      simp only [spelled, List.length_map, List.length_cons, String.length_toList] at whole
      omega
    rw [shape, List.cons_append] at found
    rw [made, shape, List.cons_append, unescape, unescapeFrom, found]
    simp only [length, unescapeFrom_append]
  · rw [made, List.cons_append, List.nil_append, unescape, unescapeFrom, entityAt?_of_ne other]
    rfl

/-- **An escaped text is read back as the given one.** -/
theorem unescape_escapePoints (ps : List CodePoint) : unescape (escapePoints ps) = ps := by
  induction ps with
  | nil => rfl
  | cons p ps ih =>
    have step := unescape_escapePoint p (escapePoints ps)
    rwa [ih] at step

example :
    escapePoints (spelled "&lt;<") = spelled "&amp;lt;&lt;" ∧
      unescape (spelled "&amp;lt;&lt;") = spelled "&lt;<" :=
  ⟨rfl, rfl⟩

/-! ### The filter -/

/-- A change of texts is a change of their code points. -/
theorem onCodePoints_ofPoints (f : List CodePoint → List CodePoint) (ps : List CodePoint)
    (argument : Option String) :
    onCodePoints f (.ofPoints ps) argument = .ok (.ofPoints (f ps)) := by
  rcases Value.ofPoints_cases ps with ⟨s, made, rfl⟩ | made
  · rw [made]
    rfl
  · rw [made]
    rfl

/-- **Escaping is safe and loses nothing.** Every text, a row of code points, is escaped; the result
holds no bracket and no quote, each ampersand in it begins an entity, and with the characters in
place of the entities it is the text again. So different texts are escaped to different ones.
What two texts one behind the other are escaped to is what each is escaped to, one behind the
other. -/
theorem escape_safe_and_lossless (world : Surroundings) (argument : Option String) :
    (∀ ps, Filter.apply (builtins world) (.ofPoints ps) ⟨"escape", argument⟩ =
        .ok (.ofPoints (escapePoints ps)) ∧
      Unmarked (escapePoints ps) ∧ Opens (escapePoints ps) ∧ unescape (escapePoints ps) = ps) ∧
    (∀ ps qs, Filter.apply (builtins world) (.ofPoints ps) ⟨"escape", argument⟩ =
        Filter.apply (builtins world) (.ofPoints qs) ⟨"escape", argument⟩ ↔ ps = qs) ∧
    ∀ ps qs, escapePoints (ps ++ qs) = escapePoints ps ++ escapePoints qs := by
  have escaped (ps : List CodePoint) :
      Filter.apply (builtins world) (.ofPoints ps) ⟨"escape", argument⟩ =
        .ok (.ofPoints (escapePoints ps)) :=
    onCodePoints_ofPoints escapePoints ps argument
  refine ⟨fun ps => ?_, fun ps qs => ?_, fun ps qs => List.flatMap_append⟩
  · exact ⟨escaped ps, unmarked_escapePoints ps, opens_escapePoints ps, unescape_escapePoints ps⟩
  · constructor
    · intro same
      rw [escaped, escaped] at same
      have alike := Value.ofPoints_injective (Except.ok.inj same)
      calc ps = unescape (escapePoints ps) := (unescape_escapePoints ps).symm
        _ = unescape (escapePoints qs) := by rw [alike]
        _ = qs := unescape_escapePoints qs
    · intro same
      rw [same]

end Stencil.Filter
