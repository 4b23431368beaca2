/-
# The lines of tokens

A token stands where its first own character does, behind the comments or blanks
that are skipped in front of it; the end stands at the end of the source. The
lexer counts the newlines that it passes and takes the line of a token when the
comments or blanks in front of it are counted, so the line is the one on which the
token stands.

Text is the exception. Its line is taken before the comments in front of it are
passed, so text behind comments has the line on which the first of them opens. It
is the line of the text just if these comments hold no newline.

Key definitions: `Lexer.Placed`, `Lexer.Layout`, `Lexer.Placed.firstLine`.
Key theorems: `Lexer.Passes.leading`, `token_lines`.
-/
import Stencil.Proofs.Pieces

namespace Stencil
namespace Lexer

/-- A token and where it stands. -/
structure Placed where
  token : Token
  /-- The source up to the token before it. -/
  before : List Char
  /-- The comments or blanks in front of its first own character. -/
  skipped : List Char

namespace Placed

/-- The line of the first own character of a token. -/
def firstLine (p : Placed) : Nat :=
  1 + newlines (p.before ++ p.skipped)

/-- The line that a token has: for text the line on which the comments in front of it begin. -/
def ownLine (p : Placed) : Nat :=
  if p.token.kind = .text then 1 + newlines p.before else p.firstLine

/-- When the line that a token has is the one on which it stands. -/
theorem ownLine_eq_firstLine_iff (p : Placed) :
    p.ownLine = p.firstLine ↔ (p.token.kind = .text → '\n' ∉ p.skipped) := by
  unfold ownLine
  by_cases text : p.token.kind = .text
  · have none : newlines p.skipped = 0 ↔ '\n' ∉ p.skipped := List.count_eq_zero
    rw [if_pos text, firstLine, newlines_append, ← none]
    constructor
    · intro same _
      omega
    · intro clear
      rw [clear text, Nat.add_zero]
  · rw [if_neg text]
    exact ⟨fun _ here => absurd here text, fun _ => rfl⟩

end Placed

/-- Tokens with their places, from a place in a source on: what is before it, and what is ahead.
Text begins with its first character that stands in no comment. -/
inductive Layout : Mode → List Char → List Placed → List Char → Prop
  | text {before comments tail text rest : List Char} {c : Char} {line : Nat} {ps : List Placed}
    (comment : Chunks comments []) (plain : ∀ d ∈ (tail ++ rest).head?, opens c d = false)
    (chunk : Chunks tail text) (stop : rest = [] ∨ Tagged rest)
    (more : Layout .text (before ++ (comments ++ c :: tail)) ps rest) :
    Layout .text before (⟨⟨.text, String.ofList (c :: text), line⟩, before, comments⟩ :: ps)
      (comments ++ c :: tail ++ rest)
  | opening {before comments rest : List Char} {c : Char} {line : Nat} {ps : List Placed}
    (comment : Chunks comments [])
    (more : Layout .expression (before ++ (comments ++ ['\x7b', c])) ps rest) :
    Layout .text before
      (⟨⟨openingKind c, String.ofList ['\x7b', c], line⟩, before, comments⟩ :: ps)
      (comments ++ '\x7b' :: c :: rest)
  | lexeme {before blanks written rest : List Char} {kind : TokenKind} {value : String} {line : Nat}
    {ps : List Placed} (blank : ∀ c ∈ blanks, Text.isBlank c = true)
    (first : (written ++ rest).head?.any Text.isBlank = false)
    (found : kind.modeBefore = .expression) (spelled : Spelled kind value written)
    (more : Layout kind.modeAfter (before ++ (blanks ++ written)) ps rest) :
    Layout .expression before (⟨⟨kind, value, line⟩, before, blanks⟩ :: ps)
      (blanks ++ (written ++ rest))
  | textEnd {before comments : List Char} {line : Nat} (comment : Chunks comments []) :
    Layout .text before [⟨⟨.eof, "", line⟩, before, comments⟩] comments
  | tagUnclosed {before blanks : List Char} {line : Nat}
    (blank : ∀ c ∈ blanks, Text.isBlank c = true) :
    Layout .expression before [⟨⟨.eof, "", line⟩, before, blanks⟩] blanks

/-- Text that is passed begins behind the comments in front of it. -/
theorem Passes.leading {cs text : List Char} {r : Region} {c : Char} (h : Passes cs r)
    (some : r.text = c :: text) :
    ∃ comments tail, r.passed = comments ++ c :: tail ∧ Chunks comments [] ∧
      (∀ d ∈ (tail ++ r.rest).head?, opens c d = false) ∧ Chunks tail text := by
  induction h with
  | nil => cases some
  | tag _ => cases some
  | unclosed _ => cases some
  | @comment body cs r never _ ih =>
    obtain ⟨comments, tail, passed, comment, plain, chunk⟩ := ih some
    refine ⟨'\x7b' :: '#' :: (body ++ '#' :: '\x7d' :: comments), tail, ?_, .comment never comment,
      plain, chunk⟩
    simp [Region.drop, passed]
  | @char c cs r plain passes _ =>
    cases some
    refine ⟨[], r.passed, rfl, .nil, fun d hd => plain d ?_, passes.chunks⟩
    rw [← passes.split]
    exact hd

/-- A token that stands ahead of the lexer takes its place in front of the others, and it has the
line of its kind. -/
theorem Ahead.placed {m : Mode} {cs skipped written rest before : List Char} {kind : TokenKind}
    {value : String} {line : Nat} {ps : List Placed}
    (h : Ahead m cs (.token skipped kind value written rest)) (here : line = 1 + newlines before)
    (more : Layout kind.modeAfter (before ++ (skipped ++ written)) ps rest) :
    ∃ p : Placed, p.token = ⟨kind, value, line + newlines skipped⟩ ∧
      Layout m before (p :: ps) cs ∧ p.token.line = p.ownLine := by
  have stop := h.tagged
  have counted : line + newlines skipped = 1 + newlines (before ++ skipped) := by
    rw [here, newlines_append, Nat.add_assoc]
  cases h with
  | @text _ r passes closed some =>
    obtain ⟨c, text, own⟩ := List.exists_cons_of_ne_nil some
    obtain ⟨comments, tail, passed, comment, plain, chunk⟩ := passes.leading own
    rw [List.nil_append, passed] at more
    refine ⟨⟨_, before, comments⟩, rfl, ?_, here⟩
    rw [own, ← passes.split, passed]
    exact .text comment plain chunk (stop rfl) more
  | @opening _ _ r c passes closed none found =>
    have comment := passes.chunks
    rw [none] at comment
    rw [modeAfter_openingKind] at more
    refine ⟨⟨_, before, r.passed⟩, rfl, ?_, ?_⟩
    · rw [← passes.split, found]
      exact .opening comment more
    · have other : openingKind c ≠ .text := by
        unfold openingKind
        split <;> exact nofun
      exact counted.trans (if_neg other).symm
  | @lexeme _ _ _ _ _ blank lex =>
    refine ⟨⟨_, before, _⟩, rfl, .lexeme blank lex.head lex.modeBefore lex.spelled more, ?_⟩
    have other : kind ≠ .text := by
      rintro rfl
      exact absurd lex.modeBefore nofun
    exact counted.trans (if_neg other).symm

/-- So does the end. -/
theorem Ahead.placed_end {m : Mode} {cs skipped before : List Char} {line : Nat}
    (h : Ahead m cs (.finish skipped)) (here : line = 1 + newlines before) :
    ∃ p : Placed, p.token = ⟨.eof, "", line + newlines skipped⟩ ∧ Layout m before [p] cs ∧
      p.token.line = p.ownLine := by
  refine ⟨⟨⟨.eof, "", line + newlines skipped⟩, before, skipped⟩, rfl, ?_, ?_⟩
  · cases h with
    | textEnd passes closed none ended =>
      have comment := passes.chunks
      have split := passes.split
      rw [none] at comment
      rw [ended, List.append_nil] at split
      rw [← split]
      exact .textEnd comment
    | tagUnclosed blank => exact .tagUnclosed blank
  · show line + newlines skipped = 1 + newlines (before ++ skipped)
    rw [here, newlines_append, Nat.add_assoc]

/-- From wherever the line is known, the tokens ahead have their places and their lines. -/
theorem tokens_placed : ∀ (s : Lexer) (ts : List Token), s.scan.tokens = .ok ts →
    ∀ before, s.line = 1 + newlines before →
      ∃ ps : List Placed, ps.map Placed.token = ts ∧ Layout s.mode before ps s.rest ∧
        ∀ p ∈ ps, p.token.line = p.ownLine := by
  refine tokens_induction (fun s a s' line ts first read ih => ?_) fun s s' line read => ?_
  · intro before here
    obtain ⟨skipped, written, ahead, after⟩ := first.ahead
    have there : s'.line = 1 + newlines (before ++ (skipped ++ written)) := by
      have counted : s'.line = s.line + newlines (skipped ++ written) := by rw [after]; rfl
      rw [counted, here, newlines_append before, Nat.add_assoc]
    obtain ⟨ps, same, layout, lines⟩ := ih _ there
    rw [first.mode] at layout
    obtain ⟨p, token, place, right⟩ := ahead.placed here layout
    rw [next_of_ahead ahead, Sight.result, Prod.mk.injEq, Except.ok.injEq] at read
    refine ⟨p :: ps, ?_, place, List.forall_mem_cons.mpr ⟨right, lines⟩⟩
    rw [List.map_cons, same, token, read.1]
  · intro before here
    obtain ⟨skipped, ahead, -⟩ := Ends.ahead ⟨line, read⟩
    obtain ⟨p, token, place, right⟩ := ahead.placed_end here
    rw [next_of_ahead ahead, Sight.result, Prod.mk.injEq, Except.ok.injEq] at read
    refine ⟨[p], ?_, place, fun q member => List.mem_singleton.mp member ▸ right⟩
    rw [List.map_singleton, token, read.1]

end Lexer

open Lexer

/-- **The lines of the tokens of a source.** Each token has its place in the source. Its line is that
of its first own character, for the end that of the end of the source; but text has the line on which
the comments in front of it begin. So the line is right for every token but for text behind comments
with a newline in them. -/
theorem token_lines (source : String) (ts : List Token) (h : tokenize source = .ok ts) :
    ∃ ps : List Placed, ps.map Placed.token = ts ∧ Layout .text [] ps source.toList ∧
      ∀ p ∈ ps,
        (p.token.kind ≠ .text → p.token.line = p.firstLine) ∧
        (p.token.kind = .text → p.token.line = 1 + newlines p.before) ∧
        (p.token.line = p.firstLine ↔ (p.token.kind = .text → '\n' ∉ p.skipped)) := by
  obtain ⟨ps, same, layout, lines⟩ := tokens_placed (start source) ts h [] rfl
  refine ⟨ps, same, layout, fun p member => ?_⟩
  rw [lines p member]
  exact ⟨fun other => if_neg other, fun text => if_pos text, p.ownLine_eq_firstLine_iff⟩

/-- Text behind a comment with a newline in it is on the second line, and has the first one. -/
theorem token_lines_hidden :
    tokenize "\x7b#\n#\x7dx" = .ok [⟨.text, "x", 1⟩, ⟨.eof, "", 2⟩] ∧
      ∃ ps : List Placed, ps.map Placed.token = [⟨.text, "x", 1⟩, ⟨.eof, "", 2⟩] ∧
        Layout .text [] ps "\x7b#\n#\x7dx".toList ∧
        ∀ p ∈ ps, p.token.line = p.firstLine ↔ (p.token.kind = .text → '\n' ∉ p.skipped) := by
  have read : tokenize "\x7b#\n#\x7dx" = .ok [⟨.text, "x", 1⟩, ⟨.eof, "", 2⟩] := by cbv
  obtain ⟨ps, same, layout, lines⟩ := token_lines _ _ read
  exact ⟨read, ps, same, layout, fun p member => (lines p member).2.2⟩

end Stencil
