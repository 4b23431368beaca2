/-
# What a reader asks for

A reader is put together from a few steps: it asks the lexer for the token ahead,
to take it or to look at it; it converts a numeral; it fails; and it repeats
something for as many turns as there may be tokens. An account of a run lists in
order what the lexer was asked for and which numerals were converted, and it says
so if a repetition has used up its turns.

Nothing that goes wrong on the way is passed over. So a run ends in a fault of the
lexer just where the lexer was asked for something that it cannot give without one,
and in a fault over a numeral just where one was converted that is too long. The
lexer cannot go on over a letter or a digit beyond ASCII inside a tag, and over
nothing else.

Key definitions: `Lexer.Reached`, `Lexer.AtStray`, `Parse.Event`, `Parse.Runs`.
Key theorems: `Lexer.next_eq_fault_iff`, `Number.value?_eq_none_iff`,
`Parse.Runs.fails_of_mem`, `Parse.Runs.cause_of_failure`.
-/
import Stencil.Proofs.Decimal
import Stencil.Proofs.Phrases
import Stencil.Proofs.Pieces

namespace Stencil

namespace Lexer

/-! ### Places in a source -/

/-- A lexer that some calls lead to from the start of a source. -/
def Reached (source : String) (s : Lexer) : Prop :=
  ∃ calls, s = (start source).afterCalls calls

theorem reached_start (source : String) : Reached source (start source) :=
  ⟨[], rfl⟩

variable {source : String} {s : Lexer}

theorem Reached.next (h : Reached source s) : Reached source s.next.2 := by
  obtain ⟨calls, rfl⟩ := h
  exact ⟨calls ++ [.next], by rw [afterCalls, afterCalls, List.foldl_append]; rfl⟩

/-- What is left of a source is an end of it. -/
theorem Reached.split (h : Reached source s) : ∃ passed, source.toList = passed ++ s.rest := by
  obtain ⟨calls, rfl⟩ := h
  obtain ⟨passed, moves⟩ := afterCalls_moves (start source) calls
  exact ⟨passed, moves.rest⟩

theorem newlines_le_of_sublist {cs ds : List Char} (h : cs.Sublist ds) :
    newlines cs ≤ newlines ds :=
  h.count_le _

/-- The line of a lexer is a line of the source. -/
theorem Reached.line (h : Reached source s) :
    1 ≤ s.line ∧ s.line ≤ 1 + newlines source.toList := by
  obtain ⟨calls, rfl⟩ := h
  have known := line_afterCalls source calls
  have fewer := newlines_le_of_sublist
    (List.take_sublist ((start source).afterCalls calls).position source.toList)
  omega

/-- A token that the lexer gives somewhere in a source. -/
def Given (source : String) (t : Token) : Prop :=
  ∃ s, Reached source s ∧ s.next.1 = .ok t

/-- A token lies between where the lexer stood and where it stands. -/
theorem line_of_next {t : Token} (h : s.next.1 = .ok t) :
    s.line ≤ t.line ∧ t.line ≤ s.next.2.line := by
  obtain ⟨g, ahead⟩ := exists_ahead s.mode s.rest
  rw [next_of_ahead ahead] at h ⊢
  cases g with
  | token skipped kind value written rest =>
    have whole := newlines_append skipped written
    cases h
    simp only [Sight.result, advance]
    omega
  | finish skipped =>
    cases h
    simp only [Sight.result, advance]
    omega
  | stuck skipped failure rest => cases h

/-- The line of a token is a line of the source. -/
theorem Given.line {t : Token} (h : Given source t) :
    1 ≤ t.line ∧ t.line ≤ 1 + newlines source.toList := by
  obtain ⟨s, there, given⟩ := h
  have front := there.line
  have back := there.next.line
  have between := line_of_next given
  omega

/-! ### Where the lexer cannot go on -/

/-- A letter or a digit beyond ASCII stands ahead inside a tag, perhaps behind blanks. -/
def AtStray (s : Lexer) : Prop :=
  s.mode = .expression ∧ (s.rest.dropWhile Text.isBlank).head?.any isStray = true

/-- The character is beyond ASCII. -/
theorem AtStray.exists_mem (h : s.AtStray) : ∃ c ∈ s.rest, 0x80 ≤ c.toNat := by
  have inside := (List.dropWhile_sublist (l := s.rest) Text.isBlank).subset
  obtain ⟨-, strange⟩ := h
  generalize s.rest.dropWhile Text.isBlank = left at inside strange
  cases left with
  | nil => cases strange
  | cons c rest =>
    refine ⟨c, inside List.mem_cons_self, Nat.le_of_not_lt ?_⟩
    have beyond := (Bool.and_eq_true_iff.mp strange).2
    simpa using beyond

/-- **The lexer stops without an error about the template** just over a letter or a digit beyond
ASCII inside a tag. -/
theorem next_eq_fault_iff {f : Fault} :
    s.next.1 = .error (.fault f) ↔ f = .strayCharacter ∧ s.AtStray := by
  constructor
  · intro h
    obtain ⟨g, ahead⟩ := exists_ahead s.mode s.rest
    rw [next_of_ahead ahead] at h
    cases g with
    | token skipped kind value written rest => cases h
    | finish skipped => cases h
    | stuck skipped failure rest =>
      rw [Sight.result, Except.error.injEq] at h
      generalize mode : s.mode = m at ahead
      generalize left : s.rest = cs at ahead
      cases ahead with
      | unterminated passes unclosed => cases h
      | stuck blank stuck first =>
        cases stuck with
        | stray strange =>
          cases h
          refine ⟨rfl, mode, ?_⟩
          rw [left, (span_of blank first).2]
          exact strange
        | string known inside => cases h
  · rintro ⟨rfl, mode, strange⟩
    have stop := head?_dropWhile Text.isBlank s.rest
    have split := List.takeWhile_append_dropWhile (p := Text.isBlank) (l := s.rest)
    generalize s.rest.dropWhile Text.isBlank = left at strange stop split
    cases left with
    | nil => cases strange
    | cons c rest =>
      have ahead := Ahead.stuck (all_takeWhile Text.isBlank s.rest) (.stray strange) stop
      rw [split, ← mode] at ahead
      rw [next_of_ahead ahead]
      rfl

end Lexer

namespace Number

open Lexer

/-- **A numeral has no value** if it stands for an integer of too many digits, and only then. -/
theorem value?_eq_none_iff {cs y : List Char} (proper : cs ≠ []) (digits : Numeral cs y) :
    value? (String.ofList cs) = none ↔ '.' ∉ cs ∧ digitLimit < cs.length := by
  unfold value?
  rw [String.toList_ofList]
  cases digits with
  | fraction => simp
  | whole digits stop =>
    have noPoint : '.' ∉ cs := fun point => absurd (digits '.' point) (by decide)
    rw [if_neg (by simpa using noPoint), parse?_of_digits proper digits, Option.map_eq_none_iff]
    simp [noPoint]

end Number

namespace Lexer

/-- A numeral without a point is made of digits. -/
theorem Numeral.digits {x y : List Char} (h : Numeral x y) (whole : '.' ∉ x) :
    ∀ d ∈ x, d.isDigit = true := by
  cases h with
  | whole digits stop => exact digits
  | fraction => exact absurd (List.mem_append_right _ List.mem_cons_self) whole

theorem wordKind_ne_number (word : String) : wordKind word ≠ .number := by
  unfold wordKind
  split <;> exact nofun

/-- A numeral is written as it is. -/
theorem Lexeme.numeral {kind : TokenKind} {value : String} {x y : List Char}
    (lex : Lexeme kind value x y) (number : kind = .number) : value.toList = x ∧ Numeral x y := by
  cases lex with
  | name => exact absurd number (wordKind_ne_number _)
  | number first digits => exact ⟨String.toList_ofList, digits⟩
  | _ => cases number

theorem Ahead.numeral {m : Mode} {cs skipped written rest : List Char} {kind : TokenKind}
    {value : String} (h : Ahead m cs (.token skipped kind value written rest))
    (number : kind = .number) : value.toList = written ∧ Numeral written rest := by
  cases h with
  | text => cases number
  | opening =>
    unfold openingKind at number
    split at number <;> cases number
  | lexeme blank lex => exact lex.numeral number

/-- A numeral that the lexer gives stands in the source as it is. -/
theorem Given.numeral {source : String} {t : Token} (h : Given source t)
    (number : t.kind = .number) :
    t.value.toList ≠ [] ∧ (∃ y, Numeral t.value.toList y) ∧
      t.value.toList <:+: source.toList := by
  obtain ⟨s, there, given⟩ := h
  obtain ⟨g, ahead⟩ := exists_ahead s.mode s.rest
  rw [next_of_ahead ahead] at given
  cases g with
  | finish skipped =>
    cases given
    cases number
  | stuck skipped failure rest => cases given
  | token skipped kind value written rest =>
    cases given
    obtain ⟨passed, split⟩ := there.split
    obtain ⟨rfl, digits⟩ := ahead.numeral number
    refine ⟨ahead.written_ne_nil, ⟨rest, digits⟩, passed ++ skipped, rest, ?_⟩
    rw [split, ahead.split]
    simp only [List.append_assoc]

end Lexer

namespace Parse

open Lexer

/-! ### Accounts of runs -/

/-- What happens in a run of a reader. -/
inductive Event where
  /-- The lexer is asked for the token ahead of it. -/
  | asked (s : Lexer)
  /-- A numeral is converted to a value. -/
  | converted (text : String)
  /-- A repetition has no turn left. -/
  | exhausted

/-- What happens cannot be done without a failure. -/
def Event.Breaks (failure : Failure) : Event → Prop
  | .asked s => s.next.1 = .error failure
  | .converted text => failure = .fault .integerTooLong ∧ Number.value? text = none
  | .exhausted => False

/-- How readers run: what happens on the way, in order, and what comes of it. -/
inductive Runs : {α : Type} → Parse α → Cursor → List Event → Except Halt (α × Cursor) → Prop
  | pure {α : Type} {a : α} {c : Cursor} : Runs (Pure.pure a) c [] (.ok (a, c))
  | fail {α : Type} {cause : Cause} {line : Nat} {c : Cursor} :
    Runs (fail cause line : Parse α) c [] (.error ⟨Failure.onLine cause line, c.here⟩)
  | read {s : Lexer} : Runs read (.ofLexer s) [.asked s] (read (.ofLexer s))
  | peek {s : Lexer} : Runs peek (.ofLexer s) [.asked s] (peek (.ofLexer s))
  | numeral {text : String} {c : Cursor} : Runs (numeral text) c [.converted text] (numeral text c)
  | exhausted {α : Type} {c : Cursor} :
    Runs (exhausted : Parse α) c [.exhausted] (exhausted c)
  | bind {α β : Type} {p : Parse α} {f : α → Parse β} {c c' : Cursor} {a : α} {es es' : List Event}
    {r : Except Halt (β × Cursor)} (first : Runs p c es (.ok (a, c'))) (rest : Runs (f a) c' es' r) :
    Runs (p >>= f) c (es ++ es') r
  | bindFails {α β : Type} {p : Parse α} {f : α → Parse β} {c : Cursor} {halt : Halt}
    {es : List Event} (first : Runs p c es (.error halt)) : Runs (p >>= f) c es (.error halt)
  | repeating {α : Type} {p : Nat → Parse α} {c : Cursor} {es : List Event}
    {r : Except Halt (α × Cursor)} (inner : Runs (p (c.size + 1)) c es r) :
    Runs (repeating p) c es r

namespace Runs

variable {α : Type} {p : Parse α} {c : Cursor} {es : List Event} {r : Except Halt (α × Cursor)}

/-- **An account is of what the reader does.** -/
theorem eq (h : Runs p c es r) : p c = r := by
  induction h with
  | pure => rfl
  | fail => rfl
  | read => rfl
  | peek => rfl
  | numeral => rfl
  | exhausted => rfl
  | @bind α β p f c c' a es es' r _ _ ih ih' =>
    have run : (p >>= f) c = (p c >>= fun (a, c') => f a c') := rfl
    rw [run, ih]
    exact ih'
  | @bindFails α β p f c halt es _ ih =>
    have run : (p >>= f) c = (p c >>= fun (a, c') => f a c') := rfl
    rw [run, ih]
    rfl
  | repeating _ ih => exact ih

/-- What becomes of a numeral. -/
theorem numeral_eq (text : String) (c : Cursor) :
    Parse.numeral text c =
      match Number.value? text with
      | some v => .ok (v, c)
      | none => .error ⟨.fault .integerTooLong, c.here⟩ := by
  unfold Parse.numeral Number.value?
  split
  · rfl
  · cases Number.parse? text.toList <;> rfl

/-- **A run ends in a failure** if something happens in it that cannot be done without. -/
theorem fails_of_mem {e : Event} {failure : Failure} (broken : e.Breaks failure)
    (h : Runs p c es r) (happens : e ∈ es) : ∃ halt, r = .error halt ∧ halt.failure = failure := by
  induction h with
  | pure => cases happens
  | fail => cases happens
  | @read s =>
    cases List.mem_singleton.mp happens
    have found : s.next = (.error failure, s.next.2) := Prod.ext broken rfl
    rw [read_ofLexer, found]
    exact ⟨_, rfl, rfl⟩
  | @peek s =>
    cases List.mem_singleton.mp happens
    have found : s.next = (.error failure, s.next.2) := Prod.ext broken rfl
    rw [peek_ofLexer, found]
    exact ⟨_, rfl, rfl⟩
  | numeral =>
    cases List.mem_singleton.mp happens
    obtain ⟨rfl, long⟩ := broken
    rw [numeral_eq, long]
    exact ⟨_, rfl, rfl⟩
  | exhausted =>
    cases List.mem_singleton.mp happens
    exact broken.elim
  | bind _ _ ih ih' =>
    rcases List.mem_append.mp happens with front | back
    · obtain ⟨halt, failed, -⟩ := ih front
      cases failed
    · exact ih' back
  | bindFails _ ih =>
    obtain ⟨halt, failed, same⟩ := ih happens
    cases failed
    exact ⟨_, rfl, same⟩
  | repeating _ ih => exact ih happens

/-- **A failure has its cause in the account**, unless the reader puts it on a line: something
happened that cannot be done without it. -/
theorem cause_of_failure {halt : Halt} (h : Runs p c es r) (failed : r = .error halt) :
    (∃ cause line, halt.failure = .onLine cause line) ∨ ∃ e ∈ es, e.Breaks halt.failure := by
  induction h with
  | pure => cases failed
  | fail =>
    cases failed
    exact .inl ⟨_, _, rfl⟩
  | @read s =>
    refine .inr ⟨.asked s, List.mem_singleton_self _, ?_⟩
    rw [read_ofLexer] at failed
    split at failed
    · cases failed
    · next found =>
      cases failed
      exact congrArg Prod.fst found
  | @peek s =>
    refine .inr ⟨.asked s, List.mem_singleton_self _, ?_⟩
    rw [peek_ofLexer] at failed
    split at failed
    · cases failed
    · next found =>
      cases failed
      exact congrArg Prod.fst found
  | @numeral text c =>
    refine .inr ⟨.converted text, List.mem_singleton_self _, ?_⟩
    rw [numeral_eq] at failed
    split at failed
    · cases failed
    · next long =>
      cases failed
      exact ⟨rfl, long⟩
  | exhausted =>
    cases failed
    exact .inl ⟨_, _, rfl⟩
  | bind _ _ _ ih' =>
    rcases ih' failed with placed | ⟨e, happens, broken⟩
    · exact .inl placed
    · exact .inr ⟨e, List.mem_append_right _ happens, broken⟩
  | bindFails _ ih =>
    cases failed
    exact ih rfl
  | repeating _ ih => exact ih failed

theorem cause_of_fault {f : Fault} {halt : Halt} (h : Runs p c es r) (failed : r = .error halt)
    (fault : halt.failure = .fault f) : ∃ e ∈ es, e.Breaks (.fault f) := by
  rcases h.cause_of_failure failed with ⟨_, _, placed⟩ | ⟨e, happens, broken⟩
  · cases placed.symm.trans fault
  · exact ⟨e, happens, fault ▸ broken⟩

end Runs
end Parse
end Stencil
