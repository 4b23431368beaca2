/-
# Text without its tags

A tag runs from a less-than sign to the first greater-than sign after it. Tags are
removed in one pass from left to right, and what stood before a tag comes to stand
in front of what stood behind it. This makes no new tag: a less-than sign that is
left has no greater-than sign after it in the given text, so none in what is left
of it.

The tags are described by their places: a less-than sign begins a tag unless it
stands within a tag before it or no greater-than sign follows (`Filter.AreTags`).
There is one such set of places. A text begins with a whole tag or with a code
point that begins none (`Filter.tag_induction`), and everything here is shown along
this distinction.

Key definitions: `Filter.IsTag`, `Filter.AreTags`, `Filter.outside`,
`Filter.Untagged`.
Key theorems: `Filter.exists_tags`, `Filter.untagged_stripTags`,
`Filter.stripTags_of_untagged`, `Filter.striptags_leaves_no_tag`.
-/
import Mathlib.Data.List.Basic
import Stencil.Proofs.Escaping

namespace Stencil.Filter

/-- A tag stands between two places: a less-than sign and the first greater-than sign after it. -/
structure IsTag (ps : List CodePoint) (first last : Nat) : Prop where
  opens : ps[first]? = some (.char '<')
  closes : ps[last]? = some (.char '>')
  order : first < last
  nearest : ∀ i, first < i → i < last → ps[i]? ≠ some (.char '>')

/-- The places of all tags of a text: those that begin at a less-than sign outside of the tags
before it. -/
def AreTags (ps : List CodePoint) (tags : List (Nat × Nat)) : Prop :=
  ∀ first last, (first, last) ∈ tags ↔
    IsTag ps first last ∧ ∀ t ∈ tags, t.1 < first → t.2 < first

/-- The code points at the places outside of some intervals, in order. -/
def outside (tags : List (Nat × Nat)) (ps : List CodePoint) : List CodePoint :=
  (ps.zipIdx.filter fun p => tags.all fun t => p.2 < t.1 || t.2 < p.2).map Prod.fst

/-- A tag as it is written. -/
def tagged (inside : List CodePoint) : List CodePoint :=
  .char '<' :: inside ++ [.char '>']

@[simp] theorem length_tagged (inside : List CodePoint) :
    (tagged inside).length = inside.length + 2 := by
  simp [tagged]

theorem tagged_append (inside ps : List CodePoint) :
    tagged inside ++ ps = .char '<' :: (inside ++ .char '>' :: ps) := by
  simp [tagged]

/-- No less-than sign is followed anywhere later by a greater-than sign. -/
def Untagged (ps : List CodePoint) : Prop :=
  ¬[.char '<', .char '>'].Sublist ps

/-! ### How a text begins -/

theorem afterTag_of_not_mem {ps : List CodePoint} (endless : .char '>' ∉ ps) :
    afterTag ps = none := by
  induction ps with
  | nil => rfl
  | cons p ps ih =>
    rw [List.mem_cons, not_or] at endless
    rw [afterTag, if_neg (Ne.symm endless.1), ih endless.2]

theorem afterTag_append {inside : List CodePoint} (within : .char '>' ∉ inside)
    (ps : List CodePoint) : afterTag (inside ++ .char '>' :: ps) = some (stripTags ps) := by
  induction inside with
  | nil => simp [afterTag]
  | cons p inside ih =>
    rw [List.mem_cons, not_or] at within
    rw [List.cons_append, afterTag, if_neg (Ne.symm within.1), ih within.2]

/-- A code point that begins no tag stays. -/
theorem stripTags_plain {p : CodePoint} {ps : List CodePoint}
    (plain : p = .char '<' → .char '>' ∉ ps) : stripTags (p :: ps) = p :: stripTags ps := by
  rw [stripTags]
  by_cases sign : p = .char '<'
  · rw [if_pos sign, afterTag_of_not_mem (plain sign)]
  · rw [if_neg sign]

/-- A tag goes. -/
theorem stripTags_tag {inside : List CodePoint} (within : .char '>' ∉ inside)
    (ps : List CodePoint) : stripTags (tagged inside ++ ps) = stripTags ps := by
  rw [tagged_append, stripTags, if_pos rfl, afterTag_append within]

/-- A text is empty, or it begins with a code point that begins no tag, or with a tag. -/
@[elab_as_elim]
theorem tag_induction {motive : List CodePoint → Prop} (nil : motive [])
    (plain : ∀ p ps, (p = .char '<' → .char '>' ∉ ps) → motive ps → motive (p :: ps))
    (tag : ∀ inside ps, .char '>' ∉ inside → motive ps → motive (tagged inside ++ ps)) :
    ∀ ps, motive ps
  | [] => nil
  | p :: ps => by
    by_cases begins : p = .char '<' ∧ .char '>' ∈ ps
    · obtain ⟨rfl, closed⟩ := begins
      obtain ⟨inside, rest, parts, within⟩ := List.eq_append_cons_of_mem closed
      have shorter : rest.length < ps.length + 1 := by
        rw [parts, List.length_append, List.length_cons]
        omega
      rw [parts, ← tagged_append]
      exact tag inside rest within (tag_induction nil plain tag rest)
    · exact plain p ps (fun sign closed => begins ⟨sign, closed⟩) (tag_induction nil plain tag ps)
termination_by ps => ps.length

/-! ### What is left -/

theorem stripTags_sublist (ps : List CodePoint) : (stripTags ps).Sublist ps := by
  induction ps using tag_induction with
  | nil => exact .refl []
  | plain p ps plain ih =>
    rw [stripTags_plain plain]
    exact ih.cons_cons p
  | tag inside ps within ih =>
    rw [stripTags_tag within]
    exact ih.trans (List.sublist_append_right _ _)

theorem untagged_cons {p : CodePoint} {ps : List CodePoint} :
    Untagged (p :: ps) ↔ (p = .char '<' → .char '>' ∉ ps) ∧ Untagged ps := by
  unfold Untagged
  rw [List.cons_sublist_cons', List.singleton_sublist]
  constructor
  · intro clear
    rw [not_or, not_and] at clear
    exact ⟨fun sign => clear.2 sign.symm, clear.1⟩
  · rintro ⟨plain, clear⟩ (later | ⟨sign, closed⟩)
    · exact clear later
    · exact plain sign.symm closed

/-- **What is left has no tag in it.** -/
theorem untagged_stripTags (ps : List CodePoint) : Untagged (stripTags ps) := by
  induction ps using tag_induction with
  | nil => simp [stripTags, Untagged]
  | plain p ps plain ih =>
    rw [stripTags_plain plain, untagged_cons]
    exact ⟨fun sign closed => plain sign ((stripTags_sublist ps).subset closed), ih⟩
  | tag inside ps within ih => rwa [stripTags_tag within]

/-- **A text without tags stays as it is.** -/
theorem stripTags_of_untagged {ps : List CodePoint} (clear : Untagged ps) : stripTags ps = ps := by
  induction ps with
  | nil => rfl
  | cons p ps ih =>
    obtain ⟨plain, clear⟩ := untagged_cons.mp clear
    rw [stripTags_plain plain, ih clear]

example : stripTags (spelled "a<b<c>d>e<f") = spelled "ad>e<f" := by decide

/-! ### Places -/

/-- An interval that lies some places further on. -/
def moved (places : Nat) (t : Nat × Nat) : Nat × Nat :=
  (t.1 + places, t.2 + places)

section

variable {ps front : List CodePoint} {tags own : List (Nat × Nat)} {first last : Nat}

/-- A tag that begins at a place ends at one place. -/
theorem IsTag.last_unique {other : Nat} (h : IsTag ps first last) (h' : IsTag ps first other) :
    last = other := by
  rcases Nat.lt_trichotomy last other with before | same | behind
  · exact absurd h.closes (h'.nearest last h.order before)
  · exact same
  · exact absurd h'.closes (h.nearest other h'.order behind)

/-- Text in front moves the tags behind it. -/
theorem isTag_behind :
    IsTag (front ++ ps) (first + front.length) (last + front.length) ↔ IsTag ps first last := by
  have behind (i : Nat) : (front ++ ps)[i + front.length]? = ps[i]? := by
    rw [List.getElem?_append_right (Nat.le_add_left _ _), Nat.add_sub_cancel]
  constructor
  · rintro ⟨opens, closes, order, nearest⟩
    rw [behind] at opens closes
    refine ⟨opens, closes, by omega, fun i after before => ?_⟩
    rw [← behind]
    exact nearest _ (by omega) (by omega)
  · rintro ⟨opens, closes, order, nearest⟩
    refine ⟨by rwa [behind], by rwa [behind], by omega, fun i after before => ?_⟩
    obtain ⟨j, rfl⟩ := Nat.exists_eq_add_of_le' (show front.length ≤ i by omega)
    rw [behind]
    exact nearest j (by omega) (by omega)

theorem mem_moved {places : Nat} :
    (first + places, last + places) ∈ tags.map (moved places) ↔ (first, last) ∈ tags := by
  simp [moved]

theorem le_of_mem_moved {places : Nat} {t : Nat × Nat} (member : t ∈ tags.map (moved places)) :
    places ≤ t.1 ∧ places ≤ t.2 := by
  obtain ⟨u, -, rfl⟩ := List.mem_map.mp member
  exact ⟨Nat.le_add_left _ _, Nat.le_add_left _ _⟩

/-- The tags of a text are those of its front, and those of the rest moved behind it. -/
theorem AreTags.behind (h : AreTags ps tags)
    (ends : ∀ t ∈ own, t.1 < front.length ∧ t.2 < front.length)
    (begins : ∀ first last, first < front.length → ((first, last) ∈ own ↔
      IsTag (front ++ ps) first last ∧ ∀ t ∈ own, t.1 < first → t.2 < first)) :
    AreTags (front ++ ps) (own ++ tags.map (moved front.length)) := by
  intro first last
  rw [List.mem_append, List.forall_mem_append]
  by_cases early : first < front.length
  · have others : ∀ t ∈ tags.map (moved front.length), t.1 < first → t.2 < first := by
      intro t member before
      have further := le_of_mem_moved member
      omega
    have apart : (first, last) ∉ tags.map (moved front.length) := by
      intro member
      have further := le_of_mem_moved member
      omega
    rw [or_iff_left apart, and_iff_left others, begins first last early]
  · obtain ⟨a, rfl⟩ := Nat.exists_eq_add_of_le' (Nat.le_of_not_lt early)
    have apart : (a + front.length, last) ∉ own := fun member => early (ends _ member).1
    have before : ∀ t ∈ own, t.1 < a + front.length → t.2 < a + front.length := by
      intro t member _
      have inside := ends t member
      omega
    by_cases behind : front.length ≤ last
    · obtain ⟨b, rfl⟩ := Nat.exists_eq_add_of_le' behind
      have rest : (∀ t ∈ tags.map (moved front.length), t.1 < a + front.length →
          t.2 < a + front.length) ↔ ∀ t ∈ tags, t.1 < a → t.2 < a := by
        simp only [List.forall_mem_map, moved, Nat.add_lt_add_iff_right]
      rw [or_iff_right apart, and_iff_right before, mem_moved, isTag_behind, rest, h a b]
    · have nowhere : (a + front.length, last) ∉ tags.map (moved front.length) := fun member =>
        behind (le_of_mem_moved member).2
      have none : ¬IsTag (front ++ ps) (a + front.length) last := fun tag => by
        have order := tag.order
        omega
      simp [apart, nowhere, none]

theorem outside_append (ends : ∀ t ∈ own, t.2 < front.length) :
    outside (own ++ tags.map (moved front.length)) (front ++ ps) =
      outside own front ++ outside tags ps := by
  have shifted : ps.zipIdx front.length =
      ps.zipIdx.map fun p => (p.1, p.2 + front.length) := by
    rw [List.zipIdx_eq_map_add]
    exact List.map_congr_left fun p _ => by rw [Nat.add_comm]
  have former : ∀ p ∈ front.zipIdx, ((own ++ tags.map (moved front.length)).all fun t =>
      p.2 < t.1 || t.2 < p.2) = own.all fun t => p.2 < t.1 || t.2 < p.2 := by
    intro p member
    have early := List.snd_lt_of_mem_zipIdx member
    have passed : ((tags.map (moved front.length)).all fun t => p.2 < t.1 || t.2 < p.2) = true := by
      rw [List.all_eq_true]
      intro t far
      have further := le_of_mem_moved far
      simp
      omega
    rw [List.all_append, passed, Bool.and_true]
  have latter : ∀ p : CodePoint × Nat, ((own ++ tags.map (moved front.length)).all fun t =>
      p.2 + front.length < t.1 || t.2 < p.2 + front.length) =
        tags.all fun t => p.2 < t.1 || t.2 < p.2 := by
    intro p
    have passed :
        (own.all fun t => p.2 + front.length < t.1 || t.2 < p.2 + front.length) = true := by
      rw [List.all_eq_true]
      intro t member
      have early := ends t member
      simp
      omega
    rw [List.all_append, passed, Bool.true_and, List.all_map]
    simp [moved, Function.comp_def]
  unfold outside
  rw [List.zipIdx_append, List.filter_append, List.map_append, Nat.zero_add, shifted,
    List.filter_congr former, List.filter_map, List.map_map]
  simp only [Function.comp_def, latter]

theorem areTags_nil : AreTags [] [] := by
  intro first last
  constructor
  · intro member
    simp at member
  · rintro ⟨tag, -⟩
    have opens := tag.opens
    simp at opens

/-- A code point that begins no tag moves the tags behind it. -/
theorem AreTags.plain {p : CodePoint} (h : AreTags ps tags)
    (plain : p = .char '<' → .char '>' ∉ ps) : AreTags (p :: ps) (tags.map (moved 1)) := by
  have begins : ∀ first last, first < [p].length → ((first, last) ∈ ([] : List (Nat × Nat)) ↔
      IsTag ([p] ++ ps) first last ∧ ∀ t ∈ ([] : List (Nat × Nat)), t.1 < first → t.2 < first) := by
    intro first last early
    obtain rfl : first = 0 := by
      rw [List.length_singleton] at early
      omega
    constructor
    · intro member
      simp at member
    · rintro ⟨tag, -⟩
      obtain ⟨i, rfl⟩ := Nat.exists_eq_add_of_le' tag.order
      have opens : p = .char '<' := by simpa using tag.opens
      have closes : ps[i]? = some (.char '>') := tag.closes
      exact absurd (List.mem_of_getElem? closes) (plain opens)
  exact h.behind (by simp) begins

/-- A tag that stands in front. -/
theorem isTag_front {inside : List CodePoint} (within : .char '>' ∉ inside) :
    IsTag (tagged inside ++ ps) 0 (inside.length + 1) := by
  rw [tagged_append]
  refine ⟨rfl, by simp, Nat.succ_pos _, fun i after before closes => ?_⟩
  obtain ⟨j, rfl⟩ := Nat.exists_eq_add_of_le' after
  have early : j < inside.length := by omega
  rw [List.getElem?_cons_succ, List.getElem?_append_left early] at closes
  exact within (List.mem_of_getElem? closes)

/-- A tag in front moves the tags behind it, and none begins within it. -/
theorem AreTags.tag {inside : List CodePoint} (h : AreTags ps tags) (within : .char '>' ∉ inside) :
    AreTags (tagged inside ++ ps)
      ([(0, inside.length + 1)] ++ tags.map (moved (tagged inside).length)) := by
  refine h.behind (by simp) fun first last early => ?_
  rw [List.mem_singleton, List.forall_mem_singleton]
  constructor
  · intro same
    obtain ⟨rfl, rfl⟩ := Prod.mk.inj same
    exact ⟨isTag_front within, fun before => absurd before (Nat.lt_irrefl 0)⟩
  · rintro ⟨tag, clear⟩
    have start : first = 0 := by
      by_contra later
      have beyond := clear (Nat.pos_of_ne_zero later)
      -- Behind the places within the tag there is only the one of its greater-than sign.
      rw [length_tagged] at early
      obtain rfl : first = inside.length + 1 := by omega
      have both := tag.opens.symm.trans (isTag_front within).closes
      simp at both
    subst start
    rw [tag.last_unique (isTag_front within)]

/-- **A text has tags, and without them it is what stripping leaves.** -/
theorem exists_tags (ps : List CodePoint) :
    ∃ tags, AreTags ps tags ∧ stripTags ps = outside tags ps := by
  induction ps using tag_induction with
  | nil => exact ⟨[], areTags_nil, rfl⟩
  | plain p ps plain ih =>
    obtain ⟨tags, areTags, left⟩ := ih
    have none : ∀ t ∈ ([] : List (Nat × Nat)), t.2 < [p].length := by simp
    have parts : outside (tags.map (moved 1)) (p :: ps) = p :: outside tags ps :=
      outside_append none
    exact ⟨tags.map (moved 1), areTags.plain plain, by rw [stripTags_plain plain, parts, left]⟩
  | tag inside ps within ih =>
    obtain ⟨tags, areTags, left⟩ := ih
    have gone : outside [(0, inside.length + 1)] (tagged inside) = [] := by
      have inner : ∀ p ∈ (tagged inside).zipIdx, ¬([(0, inside.length + 1)].all fun t =>
          p.2 < t.1 || t.2 < p.2) = true := by
        intro p member
        have early := List.snd_lt_of_mem_zipIdx member
        rw [length_tagged] at early
        simp
        omega
      rw [outside, List.filter_eq_nil_iff.mpr inner, List.map_nil]
    refine ⟨_, areTags.tag within, ?_⟩
    rw [stripTags_tag within, left, outside_append (by simp), gone, List.nil_append]

/-- **There is one set of places of tags.** -/
theorem AreTags.mem_iff {others : List (Nat × Nat)} (h : AreTags ps tags) (h' : AreTags ps others) :
    (first, last) ∈ tags ↔ (first, last) ∈ others := by
  induction first using Nat.strong_induction_on generalizing last with
  | _ first ih =>
    have before : (∀ t ∈ tags, t.1 < first → t.2 < first) ↔
        ∀ t ∈ others, t.1 < first → t.2 < first :=
      ⟨fun clear t member earlier => clear t ((ih t.1 earlier).mpr member) earlier,
        fun clear t member earlier => clear t ((ih t.1 earlier).mp member) earlier⟩
    rw [h first last, h' first last, before]

theorem AreTags.outside_eq {others : List (Nat × Nat)} (h : AreTags ps tags)
    (h' : AreTags ps others) : outside tags ps = outside others ps := by
  have alike : ∀ p ∈ ps.zipIdx, (tags.all fun t => p.2 < t.1 || t.2 < p.2) =
      others.all fun t => p.2 < t.1 || t.2 < p.2 := by
    intro p _
    rw [Bool.eq_iff_iff, List.all_eq_true, List.all_eq_true]
    exact ⟨fun clear t member => clear t ((h.mem_iff h').mpr member),
      fun clear t member => clear t ((h.mem_iff h').mp member)⟩
  rw [outside, outside, List.filter_congr alike]

/-- Tags do not meet. -/
theorem AreTags.apart (h : AreTags ps tags) {t u : Nat × Nat} (member : t ∈ tags)
    (member' : u ∈ tags) : t = u ∨ t.2 < u.1 ∨ u.2 < t.1 := by
  have one := (h t.1 t.2).mp member
  have other := (h u.1 u.2).mp member'
  rcases Nat.lt_trichotomy t.1 u.1 with before | same | behind
  · exact .inr (.inl (other.2 t member before))
  · have together : IsTag ps t.1 u.2 := same ▸ other.1
    exact .inl (Prod.ext same (one.1.last_unique together))
  · exact .inr (.inr (one.2 u member' behind))

end

/-! ### The filter -/

/-- **Stripping leaves no tag.** From a text, a row of code points, exactly its tags are removed:
intervals that do not meet and run from a less-than sign outside of the ones before to the first
greater-than sign after it. What is left has no less-than sign with a greater-than sign anywhere
after it, and it stays as it is when it is stripped again. -/
theorem striptags_leaves_no_tag (world : Surroundings) (argument : Option String)
    (ps : List CodePoint) :
    ∃ left tags, Filter.apply (builtins world) (.ofPoints ps) ⟨"striptags", argument⟩ =
        .ok (.ofPoints left) ∧
      AreTags ps tags ∧ (∀ t ∈ tags, ∀ u ∈ tags, t = u ∨ t.2 < u.1 ∨ u.2 < t.1) ∧
      (∀ others, AreTags ps others → outside others ps = left) ∧
      Untagged left ∧
      Filter.apply (builtins world) (.ofPoints left) ⟨"striptags", argument⟩ =
        .ok (.ofPoints left) := by
  have stripped (qs : List CodePoint) :
      Filter.apply (builtins world) (.ofPoints qs) ⟨"striptags", argument⟩ =
        .ok (.ofPoints (stripTags qs)) :=
    onCodePoints_ofPoints stripTags qs argument
  obtain ⟨tags, areTags, left⟩ := exists_tags ps
  have clear := untagged_stripTags ps
  refine ⟨stripTags ps, tags, stripped ps, areTags, ?_, ?_, clear, ?_⟩
  · intro t member u member'
    exact areTags.apart member member'
  · intro others areOthers
    rw [left, areOthers.outside_eq areTags]
  · rw [stripped, stripTags_of_untagged clear]

theorem striptags_leaves_no_tag_between :
    AreTags (spelled "a<b>c") [(1, 3)] ∧
      Filter.apply (builtins .still) (.str "a<b>c") ⟨"striptags", none⟩ =
        .ok (.ofPoints (outside [(1, 3)] (spelled "a<b>c"))) ∧
      outside [(1, 3)] (spelled "a<b>c") = spelled "ac" := by
  have areTags : AreTags (spelled "a<b>c") [(1, 3)] := by
    have last : AreTags (spelled "c") [] := areTags_nil.plain (p := .char 'c') (by simp)
    have within : CodePoint.char '>' ∉ spelled "b" := by decide
    exact (last.tag within).plain (p := .char 'a') (by simp)
  obtain ⟨left, -, stripped, -, -, unique, -⟩ :=
    striptags_leaves_no_tag .still none (spelled "a<b>c")
  rw [unique _ areTags]
  exact ⟨areTags, stripped, (unique _ areTags).symm.trans rfl⟩

end Stencil.Filter
