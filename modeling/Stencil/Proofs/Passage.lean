/-
# The text between tags

Between tags the lexer passes characters of text and whole comments, one after
the other, until it comes to a tag, to the end of the source, or to a comment
that is not closed. Passing goes on in the same way when the source does: what
is passed before a tag stays the same, and what is passed up to the end is
followed by what is passed behind it, unless a tag or a comment begins right at
the seam.

Key definitions: `Lexer.Passes`, `Lexer.NeverCloses`, `Lexer.Apart`.
Key theorems: `Lexer.passes_region`, `Lexer.Passes.eq`, `Lexer.Passes.refit`,
`Lexer.Passes.append`.
-/
import Stencil.Lexer

namespace Stencil
namespace Lexer

/-- Two characters that begin a tag or a comment. -/
def opens (c d : Char) : Bool :=
  c = '\x7b' && (d = '\x7b' || d = '%' || d = '#')

/-- Text in which no comment ends. -/
def NeverCloses (cs : List Char) : Prop :=
  ¬['#', '\x7d'] <:+: cs

instance (cs : List Char) : Decidable (NeverCloses cs) :=
  inferInstanceAs (Decidable ¬['#', '\x7d'] <:+: cs)

/-- What is passed between tags, step by step. -/
inductive Passes : List Char → Region → Prop
  | nil : Passes [] (.stop [])
  | tag {c : Char} {cs : List Char} (known : c = '\x7b' ∨ c = '%') :
    Passes ('\x7b' :: c :: cs) (.stop ('\x7b' :: c :: cs))
  | comment {body cs : List Char} {r : Region} (body_open : NeverCloses body) (rest : Passes cs r) :
    Passes ('\x7b' :: '#' :: (body ++ '#' :: '\x7d' :: cs))
      (r.drop ('\x7b' :: '#' :: (body ++ ['#', '\x7d'])))
  | unclosed {cs : List Char} (never : NeverCloses cs) :
    Passes ('\x7b' :: '#' :: cs) ⟨[], [], '\x7b' :: '#' :: cs, true⟩
  | char {c : Char} {cs : List Char} {r : Region} (plain : ∀ d ∈ cs.head?, opens c d = false)
    (rest : Passes cs r) : Passes (c :: cs) (r.keep c)

theorem Region.drop_drop (r : Region) (xs ys : List Char) :
    (r.drop ys).drop xs = r.drop (xs ++ ys) := by
  simp [Region.drop]

theorem neverCloses_nil : NeverCloses [] := by
  simp [NeverCloses]

theorem neverCloses_cons {c : Char} {cs : List Char} (h : NeverCloses cs)
    (here : c = '#' → ∀ d ∈ cs.head?, d ≠ '\x7d') : NeverCloses (c :: cs) := by
  intro inside
  rcases List.infix_cons_iff.mp inside with first | later
  · obtain ⟨tail, e⟩ := first
    rw [List.cons_append, List.cons.injEq] at e
    obtain ⟨rfl, rfl⟩ := e
    exact here rfl '\x7d' rfl rfl
  · exact h later

theorem passes_region_comment :
    (∀ cs, Passes cs (region cs)) ∧
      ∀ cs, (comment cs = none → NeverCloses cs) ∧
        ∀ r, comment cs = some r → ∃ body tail q, cs = body ++ '#' :: '\x7d' :: tail ∧
          NeverCloses body ∧ Passes tail q ∧ r = q.drop (body ++ ['#', '\x7d']) := by
  apply region.mutual_induct
  case case1 => exact .nil
  case case2 =>
    intro cs
    exact .tag (.inl rfl)
  case case3 =>
    intro cs
    exact .tag (.inr rfl)
  case case4 =>
    intro cs r found ih
    obtain ⟨body, tail, q, rfl, never, passes, rfl⟩ := ih.2 r found
    rw [region, found]
    simp only [Region.drop_drop]
    exact .comment never passes
  case case5 =>
    intro cs missing ih
    rw [region, missing]
    exact .unclosed (ih.1 missing)
  case case6 =>
    intro c cs h1 h2 h3 ih
    rw [region.eq_5 c cs h1 h2 h3]
    refine .char (fun d hd => ?_) ih
    obtain ⟨tail, rfl⟩ : ∃ tail, cs = d :: tail := List.head?_eq_some_iff.mp hd
    by_cases brace : c = '\x7b'
    · have noTag : d ≠ '\x7b' := fun e => h1 tail brace (by rw [e])
      have noTag' : d ≠ '%' := fun e => h2 tail brace (by rw [e])
      have noComment : d ≠ '#' := fun e => h3 tail brace (by rw [e])
      simp [opens, noTag, noTag', noComment]
    · simp [opens, brace]
  case case7 => exact ⟨fun _ => neverCloses_nil, fun _ h => by simp [comment] at h⟩
  case case8 =>
    intro cs ih
    refine ⟨fun h => by simp [comment] at h, fun r h => ?_⟩
    rw [comment, Option.some.injEq] at h
    exact ⟨[], cs, region cs, rfl, neverCloses_nil, ih, h.symm⟩
  case case9 =>
    intro c cs h ih
    have here : c = '#' → ∀ d ∈ cs.head?, d ≠ '\x7d' := by
      rintro rfl d hd rfl
      obtain ⟨tail, rfl⟩ : ∃ tail, cs = '\x7d' :: tail := List.head?_eq_some_iff.mp hd
      exact h tail rfl rfl
    rw [comment.eq_3 c cs h]
    refine ⟨fun none => ?_, fun r some => ?_⟩
    · exact neverCloses_cons (ih.1 (Option.map_eq_none_iff.mp none)) here
    · obtain ⟨r', found, rfl⟩ := Option.map_eq_some_iff.mp some
      obtain ⟨body, tail, q, rfl, never, passes, rfl⟩ := ih.2 r' found
      refine ⟨c :: body, tail, q, rfl, neverCloses_cons never fun hash d hd => ?_, passes, ?_⟩
      · refine here hash d ?_
        cases body with
        | nil => cases hd
        | cons b body => exact hd
      · rw [Region.drop_drop]
        rfl

/-- **What is passed between tags** is passed step by step. -/
theorem passes_region (cs : List Char) : Passes cs (region cs) :=
  passes_region_comment.1 cs

theorem comment_closed {body : List Char} (never : NeverCloses body) (cs : List Char) :
    comment (body ++ '#' :: '\x7d' :: cs) = some ((region cs).drop (body ++ ['#', '\x7d'])) := by
  induction body with
  | nil => rfl
  | cons c body ih =>
    have inner : NeverCloses body := fun inside => never (List.infix_cons inside)
    have here : ∀ tail, c = '#' → body ++ '#' :: '\x7d' :: cs = '\x7d' :: tail → False := by
      rintro tail rfl e
      cases body with
      | nil => cases e
      | cons d body =>
        rw [List.cons_append, List.cons.injEq] at e
        refine never ⟨[], body, ?_⟩
        rw [e.1]
        rfl
    rw [List.cons_append, comment.eq_3 c _ here, ih inner, Option.map_some, Region.drop_drop]
    rfl

theorem comment_unclosed {cs : List Char} (never : NeverCloses cs) : comment cs = none := by
  cases found : comment cs with
  | none => rfl
  | some r =>
    obtain ⟨body, tail, q, rfl, -⟩ := (passes_region_comment.2 cs).2 r found
    exact absurd ⟨body, tail, by rw [List.append_assoc]; rfl⟩ never

theorem region_of_plain {c : Char} {cs : List Char} (plain : ∀ d ∈ cs.head?, opens c d = false) :
    region (c :: cs) = (region cs).keep c := by
  refine region.eq_5 c cs ?_ ?_ ?_ <;>
  · rintro tail rfl rfl
    exact absurd (plain _ rfl) (by decide)

/-- Only one way of passing leads on. -/
theorem Passes.eq {cs : List Char} {r : Region} (h : Passes cs r) : region cs = r := by
  induction h with
  | nil => rfl
  | tag known => rcases known with rfl | rfl <;> rfl
  | comment never _ ih =>
    rw [region, comment_closed never, ih]
    exact Region.drop_drop _ _ _
  | unclosed never => rw [region, comment_unclosed never]
  | char plain _ ih => rw [region_of_plain plain, ih]

theorem Passes.split {cs : List Char} {r : Region} (h : Passes cs r) : r.passed ++ r.rest = cs := by
  rw [← h.eq, region_split]

/-- What is passed between tags ends at a tag, at the end of the source, or at a comment that is
not closed. -/
theorem Passes.stop {cs : List Char} {r : Region} (h : Passes cs r) :
    (r.unterminated = false ∧ (r.rest = [] ∨
      ∃ c rest, r.rest = '\x7b' :: c :: rest ∧ (c = '\x7b' ∨ c = '%'))) ∨
    r.unterminated = true ∧ ∃ rest, r.rest = '\x7b' :: '#' :: rest ∧ NeverCloses rest := by
  induction h with
  | nil => exact .inl ⟨rfl, .inl rfl⟩
  | tag known => exact .inl ⟨rfl, .inr ⟨_, _, rfl, known⟩⟩
  | comment _ _ ih => exact ih
  | unclosed never => exact .inr ⟨rfl, _, rfl, never⟩
  | char _ _ ih => exact ih

/-- What stands behind a region is a delimiter of a tag, if the region is not the last one. -/
theorem Passes.delimiter {cs rest : List Char} {r : Region} {c : Char} (h : Passes cs r)
    (closed : r.unterminated = false) (found : r.rest = '\x7b' :: c :: rest) :
    c = '\x7b' ∨ c = '%' := by
  rcases h.stop with ⟨-, ended | ⟨d, tail, found', known⟩⟩ | ⟨unclosed, -⟩
  · rw [ended] at found
    cases found
  · rw [found'] at found
    cases found
    exact known
  · rw [closed] at unclosed
    cases unclosed

theorem Passes.text_sublist {cs : List Char} {r : Region} (h : Passes cs r) :
    r.text.Sublist r.passed := by
  induction h with
  | nil => exact .slnil
  | tag _ => exact .slnil
  | comment _ _ ih => exact ih.trans (List.sublist_append_right _ _)
  | unclosed _ => exact .slnil
  | char _ _ ih => exact ih.cons_cons _

/-! ### Text that goes on -/

/-- Regions in a row. -/
def Region.append (r q : Region) : Region :=
  ⟨r.passed ++ q.passed, r.text ++ q.text, q.rest, q.unterminated⟩

/-- No tag and no comment begins at a seam. -/
def Apart (cs ds : List Char) : Prop :=
  ∀ c ∈ cs.getLast?, ∀ d ∈ ds.head?, opens c d = false

theorem Apart.right {x y z : List Char} (h : Apart (x ++ y) z) : Apart y z := by
  intro c hc
  refine h c ?_
  rw [List.getLast?_append, hc]
  rfl

/-- **What is passed before a tag** is passed whatever stands behind the delimiter. -/
theorem Passes.refit {cs rest : List Char} {r : Region} {c : Char} (h : Passes cs r)
    (found : r.rest = '\x7b' :: c :: rest) (known : c = '\x7b' ∨ c = '%') (other : List Char) :
    Passes (r.passed ++ '\x7b' :: c :: other) { r with rest := '\x7b' :: c :: other } := by
  induction h with
  | nil => cases found
  | tag _ => exact .tag known
  | comment never _ ih =>
    have := Passes.comment never (ih found)
    simpa [Region.drop] using this
  | unclosed _ =>
    cases found
    exact absurd known (by decide)
  | @char c' cs r plain passes ih =>
    refine .char (fun d hd => plain d ?_) (ih found)
    have split := passes.split
    cases front : r.passed with
    | nil =>
      rw [front] at hd split
      have first : r.rest = '\x7b' :: c :: rest := found
      rw [← split, List.nil_append, first]
      exact hd
    | cons e passed =>
      rw [front] at hd split
      rw [← split]
      exact hd

/-- **What is passed up to the end** goes on with what is passed behind it, if nothing begins at
the seam. -/
theorem Passes.append {cs ds : List Char} {r q : Region} (h : Passes cs r) (ended : r.rest = [])
    (seam : Apart cs ds) (other : Passes ds q) : Passes (cs ++ ds) (r.append q) := by
  induction h with
  | nil => exact other
  | tag _ => cases ended
  | @comment body cs r never _ ih =>
    have inner : Apart cs ds :=
      Apart.right (x := '\x7b' :: '#' :: (body ++ ['#', '\x7d'])) (by simpa using seam)
    have := Passes.comment never (ih ended inner)
    simpa [Region.drop, Region.append] using this
  | unclosed _ => cases ended
  | @char c cs r plain rest ih =>
    refine .char (fun d hd => ?_) (ih ended (Apart.right (x := [c]) seam))
    cases cs with
    | nil => exact seam c rfl d hd
    | cons e cs => exact plain d hd

end Lexer

end Stencil
