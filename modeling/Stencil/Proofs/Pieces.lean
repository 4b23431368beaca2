/-
# The pieces of a source

A source that can be read is made of pieces in a row: comments between tags,
blanks inside them, and the tokens as they are written. A string is written
between two quotes of one kind, every other token inside a tag as its value, and
text in chunks with comments between them. Nothing is left out, and nothing is
there twice. Wherever the lexer stands it knows the line, also after a failure:
each read, good or bad, moves it over what it counts.

Key definitions: `Lexer.Chunks`, `Lexer.Spelled`, `Lexer.Pieces`, `Lexer.Call`.
Key theorems: `tokenize_lossless`.
-/
import Stencil.Proofs.Rows

namespace Stencil
namespace Lexer

/-- Chunks of text with comments in front of them, between them and behind them, and the text
alone. No character of the text begins a delimiter. -/
inductive Chunks : List Char → List Char → Prop
  | nil : Chunks [] []
  | comment {body cs text : List Char} (open_ : NeverCloses body) (rest : Chunks cs text) :
    Chunks ('\x7b' :: '#' :: (body ++ '#' :: '\x7d' :: cs)) text
  | char {c : Char} {cs text : List Char} (plain : ∀ d ∈ cs.head?, opens c d = false)
    (rest : Chunks cs text) : Chunks (c :: cs) (c :: text)

/-- How a token is written: a string between quotes, any other token as its value. -/
inductive Spelled : TokenKind → String → List Char → Prop
  | string {quote : Char} {value : String} (known : isQuote quote = true)
    (inside : quote ∉ value.toList) : Spelled .string value (quote :: value.toList ++ [quote])
  | plain {kind : TokenKind} {value : String} (other : kind ≠ .string) :
    Spelled kind value value.toList

/-- Tokens and the source that is made of them, with the comments and blanks between them. -/
inductive Pieces : Mode → List Token → List Char → Prop
  | text {value : String} {line : Nat} {ts : List Token} {chunks rest : List Char}
    (chunk : Chunks chunks value.toList) (stop : rest = [] ∨ Tagged rest)
    (more : Pieces .text ts rest) : Pieces .text (⟨.text, value, line⟩ :: ts) (chunks ++ rest)
  | opening {c : Char} {line : Nat} {ts : List Token} {comments rest : List Char}
    (comment : Chunks comments []) (more : Pieces .expression ts rest) :
    Pieces .text (⟨openingKind c, String.ofList ['\x7b', c], line⟩ :: ts)
      (comments ++ '\x7b' :: c :: rest)
  | lexeme {kind : TokenKind} {value : String} {line : Nat} {ts : List Token}
    {blanks written rest : List Char} (blank : ∀ c ∈ blanks, Text.isBlank c = true)
    (found : kind.modeBefore = .expression) (spelled : Spelled kind value written)
    (more : Pieces kind.modeAfter ts rest) :
    Pieces .expression (⟨kind, value, line⟩ :: ts) (blanks ++ (written ++ rest))
  | textEnd {line : Nat} {comments : List Char} (comment : Chunks comments []) :
    Pieces .text [⟨.eof, "", line⟩] comments
  | tagUnclosed {line : Nat} {blanks : List Char} (blank : ∀ c ∈ blanks, Text.isBlank c = true) :
    Pieces .expression [⟨.eof, "", line⟩] blanks

/-! ### Text -/

theorem Passes.chunks {cs : List Char} {r : Region} (h : Passes cs r) :
    Chunks r.passed r.text := by
  induction h with
  | nil => exact .nil
  | tag _ => exact .nil
  | @comment body cs r never _ ih =>
    have := Chunks.comment never ih
    simpa [Region.drop] using this
  | unclosed _ => exact .nil
  | @char c cs r plain passes ih =>
    refine .char (fun d hd => plain d ?_) ih
    rw [← passes.split]
    cases front : r.passed with
    | nil =>
      rw [front] at hd
      cases hd
    | cons e passed =>
      rw [front] at hd
      exact hd

/-- Text begins as its chunks do, unless a comment stands in front of it. -/
theorem Chunks.head {cs text : List Char} (h : Chunks cs text) {c : Char}
    (first : text.head? = some c) : cs.head? = some c ∨ cs.head? = some '\x7b' := by
  cases h with
  | nil => cases first
  | comment _ _ => exact .inr rfl
  | char _ _ => exact .inl first

/-- No delimiter stands in text, not even across a comment. -/
theorem Chunks.plain {cs text : List Char} (h : Chunks cs text) {c d : Char}
    (inside : [c, d] <:+: text) : opens c d = false := by
  induction h with
  | nil => exact absurd (List.infix_nil.mp inside) (List.cons_ne_nil _ _)
  | comment _ _ ih => exact ih inside
  | @char c' cs text plain rest ih =>
    rcases List.infix_cons_iff.mp inside with ⟨tail, first⟩ | later
    · rw [List.cons_append, List.cons.injEq] at first
      obtain ⟨rfl, rfl⟩ := first
      rcases rest.head rfl with same | brace
      · exact plain d same
      · have noBrace := plain '\x7b' brace
        have : c ≠ '\x7b' := by
          rintro rfl
          exact absurd noBrace (by decide)
        rw [opens, decide_eq_false this, Bool.false_and]
    · exact ih later

/-! ### Tokens inside a tag -/

theorem Lexeme.spelled {kind : TokenKind} {value : String} {x y : List Char}
    (lex : Lexeme kind value x y) : Spelled kind value x := by
  have plain : ∀ {kind : TokenKind} {cs : List Char}, kind ≠ .string →
      Spelled kind (String.ofList cs) cs := fun {_ cs} other => by
    have := @Spelled.plain _ (String.ofList cs) other
    rwa [String.toList_ofList] at this
  cases lex with
  | variableEnd => exact plain nofun
  | tagEnd => exact plain nofun
  | name first stop =>
    refine plain ?_
    unfold wordKind
    split <;> exact nofun
  | number => exact plain nofun
  | @string quote value _ known inside =>
    have := @Spelled.string _ (String.ofList value) known (by rwa [String.toList_ofList])
    rwa [String.toList_ofList] at this
  | pipe => exact plain nofun
  | paired => exact plain nofun
  | single => exact plain nofun

/-! ### Tokens ahead -/

section

variable {m : Mode} {cs skipped written rest : List Char} {kind : TokenKind} {value : String}

/-- A token ahead is a piece of the source, and so are the comments or blanks in front of it. -/
theorem Ahead.pieces {line : Nat} {ts : List Token}
    (h : Ahead m cs (.token skipped kind value written rest))
    (more : Pieces kind.modeAfter ts rest) : Pieces m (⟨kind, value, line⟩ :: ts) cs := by
  have stop := h.tagged
  cases h with
  | @text _ r passes closed some =>
    have chunks := passes.chunks
    rw [← String.toList_ofList (l := r.text)] at chunks
    rw [← passes.split]
    exact .text chunks (stop rfl) more
  | @opening _ _ r c passes closed none found =>
    have chunks := passes.chunks
    rw [none] at chunks
    rw [← passes.split, found]
    exact .opening chunks (modeAfter_openingKind c ▸ more)
  | lexeme blank lex => exact .lexeme blank lex.modeBefore lex.spelled more

/-- Text is not empty, and no delimiter stands in it. -/
theorem Ahead.text_plain (h : Ahead m cs (.token skipped kind value written rest))
    (text : kind = .text) :
    value ≠ "" ∧ ∀ c d, opens c d = true → ¬[c, d] <:+: value.toList := by
  obtain ⟨r, passes, -, some, rfl, -⟩ := h.textRegion text
  refine ⟨fun none => some ?_, fun c d delimiter inside => ?_⟩
  · rw [← String.toList_ofList (l := r.text), none]
    rfl
  · rw [String.toList_ofList] at inside
    rw [passes.chunks.plain inside] at delimiter
    cases delimiter

end

end Lexer

open Lexer

/-! ### The tokens of a source -/

/-- What holds of the row that is the end alone, and of a row with one more token in front, holds of
the tokens of every source. -/
theorem tokens_induction {P : Lexer → List Token → Prop}
    (step : ∀ s a s' line ts, Step s a s' → s.next = (.ok ⟨a.kind, a.value, line⟩, s') →
      P s' ts → P s (⟨a.kind, a.value, line⟩ :: ts))
    (ended : ∀ s s' line, s.next = (.ok ⟨.eof, "", line⟩, s') → P s [⟨.eof, "", line⟩])
    (s : Lexer) (ts : List Token)
    (h : s.scan.tokens = .ok ts) : P s ts := by
  generalize long : s.rest.length = n
  induction n using Nat.strongRecOn generalizing s ts with
  | ind n ih =>
    rcases next_cases s with ⟨a, s', first⟩ | ⟨s', line, last⟩ | ⟨failure, s', failed⟩
    · obtain ⟨line, read, scanned⟩ := scan_of_step first
      rw [scanned, Scan.tokens] at h
      cases rest : s'.scan.tokens with
      | error failure =>
        rw [rest] at h
        cases h
      | ok ts' =>
        rw [rest] at h
        cases h
        exact step s a s' line ts' first read
          (ih s'.rest.length (long ▸ first.rest_lt) s' ts' rest rfl)
    · rw [scan_of_end last rfl, Scan.tokens] at h
      cases h
      exact ended s s' line last
    · rw [scan_of_failure failed, Scan.tokens] at h
      cases h

theorem tokens_end : ∀ (s : Lexer) (ts : List Token), s.scan.tokens = .ok ts →
    ∃ body last, ts = body ++ [last] ∧ last.kind = .eof ∧ ∀ t ∈ body, t.kind ≠ .eof := by
  refine tokens_induction (fun s a s' line ts first _ ih => ?_) fun s s' line _ => ?_
  · obtain ⟨body, last, rfl, ended, others⟩ := ih
    refine ⟨_ :: body, last, rfl, ended, fun t ht => ?_⟩
    rcases List.mem_cons.mp ht with rfl | later
    · exact first.1
    · exact others t later
  · exact ⟨[], _, rfl, rfl, List.forall_mem_nil _⟩

theorem tokens_length : ∀ (s : Lexer) (ts : List Token), s.scan.tokens = .ok ts →
    ts.length ≤ s.rest.length + 1 := by
  refine tokens_induction (fun s a s' line ts first _ ih => ?_) fun s s' line _ => ?_
  · have shorter := first.rest_lt
    rw [List.length_cons]
    omega
  · rw [List.length_singleton]
    omega

theorem tokens_pieces : ∀ (s : Lexer) (ts : List Token), s.scan.tokens = .ok ts →
    Pieces s.mode ts s.rest := by
  refine tokens_induction (fun s a s' line ts first _ ih => ?_) fun s s' line ended => ?_
  · obtain ⟨skipped, written, ahead, -⟩ := first.ahead
    rw [first.mode] at ih
    exact ahead.pieces ih
  · obtain ⟨skipped, ahead, -⟩ := Ends.ahead ⟨line, ended⟩
    generalize s.rest = cs at ahead ⊢
    generalize s.mode = m at ahead ⊢
    cases ahead with
    | textEnd passes closed none ended =>
      have chunks := passes.chunks
      have split := passes.split
      rw [none] at chunks
      rw [ended, List.append_nil] at split
      rw [← split]
      exact .textEnd chunks
    | tagUnclosed blank => exact .tagUnclosed blank

theorem tokens_text : ∀ (s : Lexer) (ts : List Token), s.scan.tokens = .ok ts →
    ∀ t ∈ ts, t.kind = .text → t.value ≠ "" ∧
      ∀ c d, opens c d = true → ¬[c, d] <:+: t.value.toList := by
  refine tokens_induction (fun s a s' line ts first _ ih => ?_) fun s s' line _ => ?_
  · intro t ht text
    rcases List.mem_cons.mp ht with rfl | later
    · obtain ⟨skipped, written, ahead, -⟩ := first.ahead
      exact ahead.text_plain text
    · exact ih t later text
  · intro t ht text
    rw [List.mem_singleton.mp ht] at text
    cases text

namespace Lexer

/-! ### Calls -/

/-- A call that moves the lexer on, and one that does not. -/
inductive Call where
  | next
  | peek
  deriving DecidableEq, Repr

/-- The lexer after a call, whether it gives a token or fails. -/
def Call.after (s : Lexer) : Call → Lexer
  | next => s.next.2
  | peek => s

/-- The lexer after some calls. -/
def afterCalls (s : Lexer) (calls : List Call) : Lexer :=
  calls.foldl Call.after s

theorem afterCalls_moves (s : Lexer) (calls : List Call) :
    ∃ passed, Moves s passed (s.afterCalls calls) := by
  induction calls generalizing s with
  | nil => exact ⟨[], .refl s⟩
  | cons call calls ih =>
    cases call with
    | next =>
      obtain ⟨front, first⟩ := next_moves s
      obtain ⟨back, rest⟩ := ih s.next.2
      exact ⟨front ++ back, first.trans rest⟩
    | peek => exact ih s

/-- **The line is known** after any calls. -/
theorem line_afterCalls (source : String) (calls : List Call) :
    ((start source).afterCalls calls).line =
      1 + newlines (source.toList.take ((start source).afterCalls calls).position) := by
  obtain ⟨passed, moves⟩ := afterCalls_moves (start source) calls
  have position : ((start source).afterCalls calls).position = passed.length := by
    rw [moves.position]
    exact Nat.zero_add _
  have split : source.toList = passed ++ ((start source).afterCalls calls).rest := moves.rest
  rw [moves.line, position, split, List.take_left]
  rfl

/-- A read that gives a token moves on. -/
theorem position_lt_of_next {s s' : Lexer} {t : Token} (h : s.next = (.ok t, s'))
    (proper : t.kind ≠ .eof) : s.position < s'.position := by
  obtain ⟨passed, some, moves⟩ := Step.moves (s := s) (a := t.terminal) ⟨proper, t.line, h⟩
  have : 0 < passed.length := List.length_pos_iff.mpr some
  rw [moves.position]
  omega

end Lexer

/-- **The lexer loses and invents nothing.** The tokens of a source end with the one end, there are
at most as many others as there are characters, and the source is made of them, of comments between
tags and of blanks inside tags. Text is not empty, and no delimiter stands in it. After any calls the
lexer knows its line, and a call that gives a token moves it on. -/
theorem tokenize_lossless (source : String) :
    (∀ ts, tokenize source = .ok ts →
      (∃ body last, ts = body ++ [last] ∧ last.kind = .eof ∧ ∀ t ∈ body, t.kind ≠ .eof) ∧
        ts.length ≤ source.length + 1 ∧
        Pieces .text ts source.toList ∧
        ∀ t ∈ ts, t.kind = .text → t.value ≠ "" ∧
          ¬['\x7b', '\x7b'] <:+: t.value.toList ∧ ¬['\x7b', '%'] <:+: t.value.toList ∧
            ¬['\x7b', '#'] <:+: t.value.toList) ∧
      ∀ calls : List Call,
        ((start source).afterCalls calls).line =
          1 + newlines (source.toList.take ((start source).afterCalls calls).position) ∧
        ∀ t s', ((start source).afterCalls calls).next = (.ok t, s') → t.kind ≠ .eof →
          ((start source).afterCalls calls).position < s'.position := by
  refine ⟨fun ts h => ⟨tokens_end _ ts h, ?_, tokens_pieces _ ts h, fun t ht text => ?_⟩,
    fun calls => ⟨line_afterCalls source calls, fun t s' => position_lt_of_next⟩⟩
  · have short := tokens_length _ ts h
    rwa [start, String.length_toList] at short
  · obtain ⟨some, plain⟩ := tokens_text _ ts h t ht text
    exact ⟨some, plain _ _ (by decide), plain _ _ (by decide), plain _ _ (by decide)⟩

/-- The lexer on a source with text, a comment, output and a string. -/
theorem tokenize_lossless_greeting :
    ∃ ts, tokenize "Hi \x7b# all #\x7d\n\x7b\x7b x | f:'\n' \x7d\x7d" = .ok ts ∧ ts.length = 9 ∧
      Pieces .text ts "Hi \x7b# all #\x7d\n\x7b\x7b x | f:'\n' \x7d\x7d".toList ∧
      ∃ t s', (start "\x7b\x7b x").next = (.ok t, s') ∧ t.kind ≠ .eof ∧ 0 < s'.position :=
  ⟨_, rfl, rfl, ((tokenize_lossless _).1 _ rfl).2.2.1, _, _, rfl, by decide,
    ((tokenize_lossless "\x7b\x7b x").2 []).2 _ _ rfl (by decide)⟩

end Stencil
