/-
# Templates printed and read again

A template that was read is derived from the tokens of its source. From the tokens
that it is printed with the same nodes are derived: names, texts and operators are
those of the source, so they can be read, and the rest of a tag is the same for
every source. Between tags the printed tokens are those of the source, so text still
stands only where a tag follows it. So what is printed is read as what it was printed
from, unless there is a fraction in it.

Key definitions: `Terminal.Inside`, `Phrase.Recast`.
Key theorems: `Phrase.Expression.printed`, `Phrase.Items.printed`, `parse_printed`.
-/
import Stencil.Proofs.Composition
import Stencil.Proofs.Decimal
import Stencil.Proofs.Printing

namespace Stencil

open Lexer Terminal

/-! ### Words that can be read -/

namespace Lexer

theorem nameTail_chars (cs : List Char) :
    ∀ c ∈ (nameTail cs).1, isWordChar c = true ∨ c = '.' := by
  induction cs with
  | nil => exact List.forall_mem_nil _
  | cons c cs ih =>
    unfold nameTail
    split
    · next word => exact List.forall_mem_cons.mpr ⟨.inl word, ih⟩
    · split
      · next point =>
        rw [Bool.and_eq_true, decide_eq_true_eq] at point
        exact List.forall_mem_cons.mpr ⟨.inr point.1, ih⟩
      · exact List.forall_mem_nil _

theorem Numeral.chars {x y : List Char} (h : Numeral x y) :
    ∀ c ∈ x, isWordChar c = true ∨ c = '.' := by
  cases h with
  | whole digits _ => exact fun c hc => .inl (isWordChar_of_isDigit (digits c hc))
  | @fraction ds fs _ digits more _ _ =>
    intro c hc
    rcases List.mem_append.mp hc with front | back
    · exact .inl (isWordChar_of_isDigit (digits c front))
    · rcases List.mem_cons.mp back with point | behind
      · exact .inr point
      · exact .inl (isWordChar_of_isDigit (more c behind))

/-- A name or a numeral is made of word characters and points. -/
theorem Lexeme.chars {kind : TokenKind} {value : String} {x y : List Char}
    (lex : Lexeme kind value x y) (known : kind = .number ∨ kind = .identifier) :
    ∀ c ∈ value.toList, isWordChar c = true ∨ c = '.' := by
  have other : kind ≠ .string ∧ kind ≠ .operator ∧ kind ≠ .pipe ∧ kind ≠ .variableEnd ∧
      kind ≠ .tagEnd := by
    rcases known with rfl | rfl <;> decide
  cases lex with
  | variableEnd => exact absurd rfl other.2.2.2.1
  | tagEnd => exact absurd rfl other.2.2.2.2
  | @name c tail _ first stop =>
    rw [String.toList_ofList]
    refine List.forall_mem_cons.mpr ⟨.inl (isWordChar_of_startsName first), ?_⟩
    have chars := nameTail_chars (tail ++ y)
    rwa [stop] at chars
  | number first digits =>
    rw [String.toList_ofList]
    exact digits.chars
  | string => exact absurd rfl other.1
  | pipe => exact absurd rfl other.2.2.1
  | paired => exact absurd rfl other.2.1
  | single => exact absurd rfl other.2.1

end Lexer

namespace Terminal

/-- A word of a tag that can be read. -/
structure Inside (a : Terminal) : Prop where
  before : a.kind.modeBefore = .expression
  after : a.kind.modeAfter = .expression
  legible : a.Legible

theorem inside_identifier {name : String} (h : (identifier name).Legible) :
    (identifier name).Inside :=
  ⟨rfl, rfl, h⟩

theorem inside_string {text : String} (h : (string text).Legible) : (string text).Inside :=
  ⟨rfl, rfl, h⟩

theorem inside_operator {symbol : String} (h : (operator symbol).Legible) :
    (operator symbol).Inside :=
  ⟨rfl, rfl, h⟩

/-- A name and an operator in front of other words. -/
theorem inside_applied {name symbol : String} {as : List Terminal}
    (first : (identifier name).Legible) (second : (operator symbol).Legible)
    (rest : ∀ a ∈ as, a.Inside) : ∀ a ∈ identifier name :: operator symbol :: as, a.Inside :=
  List.forall_mem_cons.mpr ⟨inside_identifier first,
    List.forall_mem_cons.mpr ⟨inside_operator second, rest⟩⟩

theorem inside_word {k : Keyword} (h : (word k).Legible) : (word k).Inside :=
  ⟨rfl, rfl, h⟩

theorem inside_minus : (operator "-").Inside :=
  ⟨rfl, rfl, _, lexeme_minus []⟩

/-- Names and numerals can be read as strings, too. -/
theorem inside_string_of_word {kind : TokenKind} {text : String}
    (known : kind = .number ∨ kind = .identifier) (h : Legible ⟨kind, text⟩) (front : List Char)
    (plain : '"' ∉ front) : (string (String.ofList (front ++ text.toList))).Inside := by
  have legible : ∃ x, Lexeme kind text x [] := by
    rcases known with rfl | rfl <;> exact h
  obtain ⟨x, lex⟩ := legible
  refine ⟨rfl, rfl, _, @Lexeme.string '"' _ _ (by decide) fun quote => ?_⟩
  rcases List.mem_append.mp quote with inside | inside
  · exact plain inside
  · rcases lex.chars known '"' inside with word | point
    · exact absurd word (by decide)
    · exact absurd point (by decide)

/-- A number in plain decimal can be read. -/
theorem inside_digits (n : Nat) : (number (String.ofList (Number.ofNat n))).Inside := by
  have digits : ∀ c ∈ Number.ofNat n, c.isDigit = true := fun _ => Number.isDigit_of_mem_ofNat
  cases whole : Number.ofNat n with
  | nil => exact absurd whole Nat.toDigits_ne_nil
  | cons c ds =>
    rw [whole] at digits
    exact ⟨rfl, rfl, _, .number (digits c List.mem_cons_self) (.whole digits rfl)⟩

end Terminal

/-- The text of a filter is split into its name and its argument again. -/
theorem FilterSpec.ofText_text {f : FilterSpec} (plain : ':' ∉ f.name.toList) :
    FilterSpec.ofText f.text = f := by
  obtain ⟨name, argument⟩ := f
  unfold FilterSpec.ofText FilterSpec.text
  cases argument with
  | none =>
    dsimp only
    rw [Text.cut_plain plain]
    simp
  | some argument =>
    have split : (name ++ ":" ++ argument).toList = name.toList ++ ':' :: argument.toList := by
      simp
    dsimp only
    rw [split, Text.cut_append plain]
    simp

namespace Phrase

variable {ts us : List Terminal}

/-- No colon stands in a name. -/
theorem no_colon {name : String} (h : (identifier name).Legible) : ':' ∉ name.toList := by
  obtain ⟨x, lex⟩ : ∃ x, Lexeme .identifier name x [] := h
  intro inside
  rcases lex.chars (.inr rfl) ':' inside with word | point
  · exact absurd word (by decide)
  · exact absurd point (by decide)

theorem Filter.printed {f : FilterSpec} (h : Filter ts f) (legible : ∀ a ∈ ts, a.Legible) :
    Filter f.terminals f ∧ ∀ a ∈ f.terminals, a.Inside := by
  -- An argument that can be read as a string makes the filter what it is.
  have spelled : ∀ {name text : String}, (identifier name).Legible → (operator ":").Legible →
      (string text).Inside → Filter (FilterSpec.terminals ⟨name, some text⟩) ⟨name, some text⟩ ∧
        ∀ a ∈ FilterSpec.terminals ⟨name, some text⟩, a.Inside := by
    intro name text first colon argument
    have same : FilterSpec.ofText (FilterSpec.text ⟨name, some text⟩) = ⟨name, some text⟩ :=
      FilterSpec.ofText_text (no_colon first)
    rw [FilterSpec.terminals, same]
    exact ⟨.word (.inl rfl), by
      simpa using ⟨inside_identifier first, inside_operator colon, argument⟩⟩
  cases h with
  | @bare name =>
    have first := legible _ List.mem_cons_self
    have same : FilterSpec.ofText (FilterSpec.text ⟨name, none⟩) = ⟨name, none⟩ :=
      FilterSpec.ofText_text (no_colon first)
    rw [FilterSpec.terminals, same]
    exact ⟨.bare, List.forall_mem_singleton.mpr (inside_identifier first)⟩
  | @word name text kind known =>
    simp only [List.forall_mem_cons] at legible
    obtain ⟨first, colon, last, -⟩ := legible
    refine spelled first colon ?_
    rcases known with rfl | word
    · exact inside_string last
    · have argument := inside_string_of_word word last [] List.not_mem_nil
      rwa [List.nil_append, String.ofList_toList] at argument
  | @negative name text =>
    simp only [List.forall_mem_cons] at legible
    obtain ⟨first, colon, -, last, -⟩ := legible
    refine spelled first colon ?_
    have argument := inside_string_of_word (.inl rfl) last ['-'] (by decide)
    rwa [show String.ofList (['-'] ++ text.toList) = "-" ++ text by
      rw [String.ofList_append, String.ofList_toList]] at argument

/-- An integer that was read is printed as a numeral that is read as the same integer. -/
theorem literal_int {n : Int} (short : Number.digitCount n.natAbs ≤ Number.digitLimit) :
    Literal (Value.int n).terminals (.int n) ∧ ∀ a ∈ (Value.int n).terminals, a.Inside := by
  have plain : (String.ofList (Number.ofNat n.natAbs)).toList.contains '.' = false := by
    rw [String.toList_ofList, ← Bool.not_eq_true, List.contains_iff_mem]
    intro point
    exact absurd (Number.isDigit_of_mem_ofNat point) (by decide)
  have value : Number.value? (String.ofList (Number.ofNat n.natAbs)) = some (.int n.natAbs) := by
    unfold Number.value?
    rw [plain, if_neg Bool.false_ne_true, String.toList_ofList, Number.parse_ofNat short]
    rfl
  have digits := inside_digits n.natAbs
  unfold Value.terminals
  by_cases negative : n < 0
  · dsimp only
    rw [if_pos negative]
    refine ⟨?_, by simpa using ⟨inside_minus, digits⟩⟩
    have whole := Literal.negative value
    have same : Parse.negate (.int n.natAbs) = .int n := by
      rw [Parse.negate]
      congr 1
      omega
    rwa [same] at whole
  · dsimp only
    rw [if_neg negative]
    refine ⟨?_, List.forall_mem_singleton.mpr digits⟩
    have whole := Literal.number value
    rwa [show ((n.natAbs : Nat) : Int) = n by omega] at whole

/-- A numeral with no fraction is an integer that is not too long. -/
theorem short_of_value {text : String} {v : Value} (h : Number.value? text = some v)
    (whole : v.isFraction = false) :
    ∃ n : Int, v = .int n ∧ Number.digitCount n.natAbs ≤ Number.digitLimit := by
  unfold Number.value? at h
  split at h
  · cases h
    cases whole
  · obtain ⟨n, read, rfl⟩ := Option.map_eq_some_iff.mp h
    exact ⟨n, rfl, Number.digitCount_of_parse read⟩

theorem Literal.printed {v : Value} (h : Literal ts v) (legible : ∀ a ∈ ts, a.Legible)
    (whole : v.isFraction = false) :
    Literal v.terminals v ∧ ∀ a ∈ v.terminals, a.Inside := by
  cases h with
  | string =>
    exact ⟨.string, List.forall_mem_singleton.mpr (inside_string (legible _ List.mem_cons_self))⟩
  | number value =>
    obtain ⟨n, rfl, short⟩ := short_of_value value whole
    exact literal_int short
  | @negative text v value =>
    have positive : v.isFraction = false := by
      cases v with
      | float => cases whole
      | _ => rfl
    obtain ⟨n, rfl, short⟩ := short_of_value value positive
    refine literal_int (n := -n) ?_
    rwa [Int.natAbs_neg]
  | @constant word v value =>
    have first := legible _ List.mem_cons_self
    unfold Parse.constant? at value
    split at value <;> cases value <;>
      exact ⟨.constant rfl, List.forall_mem_singleton.mpr (inside_identifier first)⟩

theorem inside_pipe : (fixed .pipe).Inside :=
  ⟨rfl, rfl, _, .pipe⟩

theorem Piped.printed {f : Option FilterSpec} (h : Piped ts f) (legible : ∀ a ∈ ts, a.Legible) :
    Piped (pipedTerminals f) f ∧ ∀ a ∈ pipedTerminals f, a.Inside := by
  cases h with
  | none => exact ⟨.none, List.forall_mem_nil _⟩
  | some filter =>
    obtain ⟨again, inside⟩ := filter.printed (List.forall_mem_cons.mp legible).2
    exact ⟨.some again, List.forall_mem_cons.mpr ⟨inside_pipe, inside⟩⟩

mutual

theorem Primary.printed : ∀ {ts : List Terminal} {e : Expr}, Primary ts e →
    (∀ a ∈ ts, a.Legible) → e.hasFraction = false →
      Primary e.terminals e ∧ ∀ a ∈ e.terminals, a.Inside
  | _, _, .literal value, legible, whole => by
    obtain ⟨again, inside⟩ := value.printed legible whole
    exact ⟨.literal again, inside⟩
  | _, _, .path free, legible, _ =>
    ⟨.path free, List.forall_mem_singleton.mpr (inside_identifier (legible _ List.mem_cons_self))⟩
  | _, _, .call free arguments, legible, whole => by
    simp only [List.forall_mem_cons] at legible
    obtain ⟨again, inside⟩ := arguments.printed legible.2.2 whole
    exact ⟨.call free again, inside_applied legible.1 legible.2.1 inside⟩

theorem Expression.printed : ∀ {ts : List Terminal} {e : Expr}, Expression ts e →
    (∀ a ∈ ts, a.Legible) → e.hasFraction = false →
      Expression e.terminals e ∧ ∀ a ∈ e.terminals, a.Inside
  | _, _, .bare primary, legible, whole => by
    obtain ⟨again, inside⟩ := primary.printed legible whole
    exact ⟨.bare again, inside⟩
  | _, _, .filtered primary filter, legible, whole => by
    simp only [List.forall_mem_append, List.forall_mem_cons] at legible
    obtain ⟨again, inside⟩ := primary.printed legible.1 whole
    obtain ⟨again', inside'⟩ := filter.printed legible.2.2
    exact ⟨.filtered again again', List.forall_mem_append.mpr ⟨inside,
      List.forall_mem_cons.mpr ⟨inside_pipe, inside'⟩⟩⟩

theorem Arguments.printed : ∀ {ts : List Terminal} {es : List Expr}, Arguments ts es →
    (∀ a ∈ ts, a.Legible) → Expr.anyFraction es = false →
      Arguments (Expr.arguments es) es ∧ ∀ a ∈ Expr.arguments es, a.Inside
  | _, _, .none, legible, _ =>
    ⟨.none, List.forall_mem_singleton.mpr (inside_operator (legible _ List.mem_cons_self))⟩
  | _, _, .some arguments, legible, whole => by
    obtain ⟨e, es, rfl, again, inside⟩ := arguments.printed legible whole
    exact ⟨.some again, inside⟩

theorem SomeArguments.printed : ∀ {ts : List Terminal} {es : List Expr}, SomeArguments ts es →
    (∀ a ∈ ts, a.Legible) → Expr.anyFraction es = false →
      ∃ e others, es = e :: others ∧ SomeArguments (e.terminals ++ Expr.further others) es ∧
        ∀ a ∈ e.terminals ++ Expr.further others, a.Inside
  | _, _, @SomeArguments.last ts e expression, legible, whole => by
    simp only [List.forall_mem_append, List.forall_mem_cons] at legible
    simp only [Expr.anyFraction, Bool.or_false] at whole
    obtain ⟨again, inside⟩ := expression.printed legible.1 whole
    exact ⟨e, [], rfl, .last again, List.forall_mem_append.mpr ⟨inside,
      List.forall_mem_singleton.mpr (inside_operator legible.2.1)⟩⟩
  | _, _, @SomeArguments.more ts us e es expression arguments, legible, whole => by
    simp only [List.forall_mem_append, List.forall_mem_cons] at legible
    rw [Expr.anyFraction, Bool.or_eq_false_iff] at whole
    obtain ⟨again, inside⟩ := expression.printed legible.1 whole.1
    obtain ⟨e', others, rfl, again', inside'⟩ := arguments.printed legible.2.2 whole.2
    exact ⟨e, e' :: others, rfl, .more again again', List.forall_mem_append.mpr ⟨inside,
      List.forall_mem_cons.mpr ⟨inside_operator legible.2.1, inside'⟩⟩⟩

end

theorem Condition.printed {c : Stencil.Condition} (h : Condition ts c)
    (legible : ∀ a ∈ ts, a.Legible) (whole : c.hasFraction = false) :
    Condition c.terminals c ∧ ∀ a ∈ c.terminals, a.Inside := by
  cases h with
  | bare =>
    exact ⟨.bare, List.forall_mem_singleton.mpr (inside_identifier (legible _ List.mem_cons_self))⟩
  | test known value =>
    simp only [List.forall_mem_cons] at legible
    obtain ⟨again, inside⟩ := value.printed legible.2.2 whole
    exact ⟨.test known again, inside_applied legible.1 legible.2.1 inside⟩

/-- Parameters are printed as they were read. -/
theorem SomeParameters.printed {names : List String} (h : SomeParameters ts names)
    (legible : ∀ a ∈ ts, a.Legible) :
    nameTerminals names ++ [operator ")"] = ts ∧ ∀ a ∈ ts, a.Inside := by
  induction h with
  | last =>
    simp only [List.forall_mem_cons] at legible
    exact ⟨rfl, inside_applied legible.1 legible.2.1 (List.forall_mem_nil _)⟩
  | @more name ts names parameters ih =>
    simp only [List.forall_mem_cons] at legible
    obtain ⟨same, inside⟩ := ih legible.2.2
    refine ⟨?_, inside_applied legible.1 legible.2.1 inside⟩
    rw [← same]
    cases parameters with
    | last => rfl
    | more => rfl

theorem Parameters.printed {names : List String} (h : Parameters ts names)
    (legible : ∀ a ∈ ts, a.Legible) :
    nameTerminals names ++ [operator ")"] = ts ∧ ∀ a ∈ ts, a.Inside := by
  cases h with
  | none =>
    exact ⟨rfl, List.forall_mem_singleton.mpr (inside_operator (legible _ List.mem_cons_self))⟩
  | some parameters => exact parameters.printed legible

/-- The names of an import are printed as they were read. -/
theorem FurtherNames.printed {name : String} {names : List String} (h : FurtherNames ts names)
    (legible : ∀ a ∈ identifier name :: ts, a.Legible) :
    nameTerminals (name :: names) = identifier name :: ts ∧
      ∀ a ∈ identifier name :: ts, a.Inside := by
  induction h generalizing name with
  | none =>
    exact ⟨rfl, List.forall_mem_singleton.mpr (inside_identifier (legible _ List.mem_cons_self))⟩
  | more further ih =>
    simp only [List.forall_mem_cons] at legible ih
    obtain ⟨same, inside⟩ := ih legible.2.2
    refine ⟨?_, inside_applied legible.1 legible.2.1 (List.forall_mem_cons.mpr inside)⟩
    rw [nameTerminals, same]
    exact nofun

/-- What stands in a tag without a body is read from what it is printed as. -/
theorem Simple.printed {k : Keyword} {node : Node} (h : Simple k ts node)
    (legible : ∀ a ∈ ts, a.Legible) (whole : node.hasFraction = false) :
    ∃ us, Simple k us node ∧ (∀ a ∈ us, a.Inside) ∧ node.terminals = Phrase.tag k us := by
  cases h with
  | assign expression =>
    simp only [List.forall_mem_cons] at legible
    obtain ⟨again, inside⟩ := expression.printed legible.2.2 whole
    exact ⟨_, .assign again, inside_applied legible.1 legible.2.1 inside, rfl⟩
  | inherit =>
    have template := inside_string (legible _ List.mem_cons_self)
    exact ⟨_, .inherit, List.forall_mem_singleton.mpr template, rfl⟩
  | inclusion =>
    have template := inside_string (legible _ List.mem_cons_self)
    exact ⟨_, .inclusion, List.forall_mem_singleton.mpr template, rfl⟩
  | imports further =>
    rw [List.forall_mem_cons, List.forall_mem_cons] at legible
    obtain ⟨same, inside⟩ := further.printed legible.2.2
    refine ⟨_, .imports further, List.forall_mem_cons.mpr ⟨inside_string legible.1,
      List.forall_mem_cons.mpr ⟨inside_word legible.2.1, inside⟩⟩, ?_⟩
    rw [Node.terminals, same]
  | parent => exact ⟨_, .parent, List.forall_mem_nil _, rfl⟩

/-- What stands in a tag with a body is read from what it is printed as, whatever the body is. -/
theorem Frame.printed {k closer : Keyword} {make : List Node → Node} (h : Frame k closer ts make)
    (legible : ∀ a ∈ ts, a.Legible) {body : List Node} (whole : (make body).hasFraction = false) :
    Node.anyFraction body = false ∧ ∃ us, Frame k closer us make ∧ (∀ a ∈ us, a.Inside) ∧
      (make body).terminals = Phrase.tag k us ++ (Node.row body ++ Phrase.tag closer []) := by
  cases h with
  | loop source filter =>
    simp only [List.forall_mem_cons, List.forall_mem_append] at legible
    obtain ⟨item, in', front, back⟩ := legible
    rw [Node.hasFraction, Bool.or_eq_false_iff] at whole
    obtain ⟨again, inside⟩ := source.printed front whole.1
    obtain ⟨again', inside'⟩ := filter.printed back
    have words := List.forall_mem_append.mpr ⟨inside, inside'⟩
    exact ⟨whole.2, _, .loop again again', List.forall_mem_cons.mpr ⟨inside_identifier item,
      List.forall_mem_cons.mpr ⟨inside_word in', words⟩⟩, rfl⟩
  | block =>
    have name := inside_identifier (legible _ List.mem_cons_self)
    exact ⟨whole, _, .block, List.forall_mem_singleton.mpr name, rfl⟩
  | definition parameters =>
    rw [List.forall_mem_cons, List.forall_mem_cons] at legible
    obtain ⟨same, inside⟩ := parameters.printed legible.2.2
    refine ⟨whole, _, .definition parameters, inside_applied legible.1 legible.2.1 inside, ?_⟩
    rw [Node.terminals, same]

/-! ### Tokens in place of others -/

/-- Tokens that can be read and that may stand wherever others may. -/
structure Recast (ts us : List Terminal) : Prop where
  legible : ∀ a ∈ us, a.Legible
  chain : ∀ {xs ys : List Terminal}, (xs ++ (ts ++ ys)).IsChain Follows →
    (xs ++ (us ++ ys)).IsChain Follows

theorem Recast.refl (legible : ∀ a ∈ ts, a.Legible) : Recast ts ts :=
  ⟨legible, id⟩

theorem Recast.append {ts' us' : List Terminal} (first : Recast ts us) (second : Recast ts' us') :
    Recast (ts ++ ts') (us ++ us') := by
  refine ⟨List.forall_mem_append.mpr ⟨first.legible, second.legible⟩, fun {xs ys} chain => ?_⟩
  rw [List.append_assoc] at chain ⊢
  have front := first.chain chain
  rw [← List.append_assoc] at front ⊢
  exact second.chain front

/-- Words of a tag may follow one another. -/
theorem follows_inside {a b : Terminal} (after : a.kind.modeAfter = .expression)
    (before : b.kind.modeBefore = .expression) : Follows a b := by
  refine ⟨after.trans before.symm, fun text => ?_⟩
  rw [text] at after
  cases after

theorem isChain_inside {a b : Terminal} {ys : List Terminal}
    (after : a.kind.modeAfter = .expression) (before : b.kind.modeBefore = .expression)
    (inside : ∀ c ∈ us, c.Inside) (behind : (b :: ys).IsChain Follows) :
    (a :: (us ++ b :: ys)).IsChain Follows := by
  induction us generalizing a with
  | nil => exact List.isChain_cons_cons.mpr ⟨follows_inside after before, behind⟩
  | cons c us ih =>
    rw [List.forall_mem_cons] at inside
    exact List.isChain_cons_cons.mpr
      ⟨follows_inside after inside.1.before, ih inside.1.after inside.2⟩

theorem words_of_tag {k : Keyword} (legible : ∀ a ∈ Phrase.tag k ts, a.Legible) :
    ∀ a ∈ ts, a.Legible := fun a ha =>
  legible a (List.mem_cons_of_mem _ (List.mem_cons_of_mem _ (List.mem_append_left _ ha)))

/-- Between its delimiters a tag may have any words. -/
theorem Recast.inside {a b : Terminal} (after : a.kind.modeAfter = .expression)
    (before : b.kind.modeBefore = .expression) (legible : a.Legible ∧ b.Legible)
    (inside : ∀ c ∈ us, c.Inside) : Recast (a :: (ts ++ [b])) (a :: (us ++ [b])) := by
  refine ⟨List.forall_mem_cons.mpr ⟨legible.1, List.forall_mem_append.mpr
    ⟨fun c hc => (inside c hc).legible, List.forall_mem_singleton.mpr legible.2⟩⟩,
    fun {xs ys} chain => ?_⟩
  rw [List.cons_append, List.append_assoc, List.singleton_append] at chain ⊢
  obtain ⟨front, rest⟩ := List.isChain_split.mp chain
  obtain ⟨-, back⟩ := List.isChain_cons_split.mp rest
  exact List.isChain_split.mpr ⟨front, isChain_inside after before inside back⟩

theorem Recast.tag {k : Keyword} (legible : ∀ a ∈ Phrase.tag k ts, a.Legible)
    (inside : ∀ a ∈ us, a.Inside) : Recast (Phrase.tag k ts) (Phrase.tag k us) := by
  simp only [Phrase.tag, List.forall_mem_cons, List.forall_mem_append] at legible
  obtain ⟨first, known, -, last, -⟩ := legible
  exact @Recast.inside (word k :: ts) (word k :: us) _ _ rfl rfl ⟨first, last⟩
    (List.forall_mem_cons.mpr ⟨inside_word known, inside⟩)

/-- In front of a tag another one can be left out, with what stands between them. -/
theorem Recast.drop {k k' : Keyword} {ts' : List Terminal}
    (legible : ∀ a ∈ Phrase.tag k' ts', a.Legible) :
    Recast (Phrase.tag k ts ++ (us ++ Phrase.tag k' ts')) (Phrase.tag k' ts') := by
  refine ⟨legible, fun {xs ys} chain => ?_⟩
  have front := (List.isChain_split.mp chain).1
  have rest := (List.isChain_append.mp chain).2.1
  rw [List.append_assoc] at rest
  have behind := (List.isChain_append.mp rest).2.1
  rw [List.append_assoc] at behind
  exact List.isChain_split.mpr ⟨front, (List.isChain_append.mp behind).2.1⟩

/-- Text, output or a tag without a body is read from what it is printed as. -/
theorem Plain.printed {node : Node} (h : Plain ts node) (legible : ∀ a ∈ ts, a.Legible)
    (whole : node.hasFraction = false) :
    Plain node.terminals node ∧ Recast ts node.terminals := by
  cases h with
  | text => exact ⟨.text, .refl legible⟩
  | output expression =>
    simp only [List.forall_mem_cons, List.forall_mem_append] at legible
    obtain ⟨first, front, last, -⟩ := legible
    obtain ⟨again, inside⟩ := expression.printed front whole
    exact ⟨.output again, .inside rfl rfl ⟨first, last⟩ inside⟩
  | tag simple =>
    obtain ⟨us, again, inside, same⟩ := simple.printed (words_of_tag legible) whole
    rw [same]
    exact ⟨.tag again, .tag legible inside⟩

mutual

/-- **The nodes of a body are read from what they are printed as**, which may stand wherever the
tokens may that they were read from. -/
theorem Items.printed : ∀ {ts : List Terminal} {nodes : List Node}, Items ts nodes →
    (∀ a ∈ ts, a.Legible) → Node.anyFraction nodes = false →
      Items (Node.row nodes) nodes ∧ Recast ts (Node.row nodes)
  | _, _, .nil, _, _ => ⟨.nil, .refl (List.forall_mem_nil _)⟩
  | _, _, .plain first rest, legible, whole => by
    rw [List.forall_mem_append] at legible
    rw [Node.anyFraction, Bool.or_eq_false_iff] at whole
    obtain ⟨again, recast⟩ := first.printed legible.1 whole.1
    obtain ⟨again', recast'⟩ := rest.printed legible.2 whole.2
    exact ⟨.plain again again', recast.append recast'⟩
  | _, _, .frame first inner rest, legible, whole => by
    simp only [List.forall_mem_append] at legible
    obtain ⟨opening, body, closing, behind⟩ := legible
    rw [Node.anyFraction, Bool.or_eq_false_iff] at whole
    obtain ⟨none, us, head, inside, same⟩ := first.printed (words_of_tag opening) whole.1
    obtain ⟨again, recast⟩ := inner.printed body none
    obtain ⟨again', recast'⟩ := rest.printed behind whole.2
    rw [Node.row, same, List.append_assoc, List.append_assoc]
    exact ⟨.frame head again again', .append (.tag opening inside)
      (recast.append (.append (.refl closing) recast'))⟩
  | _, _, .choice first inner other rest, legible, whole => by
    simp only [List.forall_mem_append] at legible
    obtain ⟨opening, body, others, behind⟩ := legible
    simp only [Node.anyFraction, Node.hasFraction, Bool.or_eq_false_iff] at whole
    obtain ⟨⟨test, none, further⟩, after⟩ := whole
    obtain ⟨head, inside⟩ := first.printed (words_of_tag opening) test
    obtain ⟨again, recast⟩ := inner.printed body none
    obtain ⟨branches, recast'⟩ := other.printed others further
    obtain ⟨again', recast''⟩ := rest.printed behind after
    rw [Node.row, Node.terminals, List.append_assoc, List.append_assoc]
    exact ⟨.choice head again branches again', .append (.tag opening inside)
      (recast.append (recast'.append recast''))⟩

/-- So are the further branches of a choice; one with nothing to do has no tag of its own. -/
theorem Rest.printed : ∀ {ts : List Terminal} {other : Alternative}, Rest ts other →
    (∀ a ∈ ts, a.Legible) → other.hasFraction = false →
      Rest other.terminals other ∧ Recast ts other.terminals
  | _, _, .elif first inner other, legible, whole => by
    simp only [List.forall_mem_append] at legible
    obtain ⟨opening, body, others⟩ := legible
    simp only [Alternative.hasFraction, Bool.or_eq_false_iff] at whole
    obtain ⟨test, none, further⟩ := whole
    obtain ⟨head, inside⟩ := first.printed (words_of_tag opening) test
    obtain ⟨again, recast⟩ := inner.printed body none
    obtain ⟨branches, recast'⟩ := other.printed others further
    exact ⟨.elif head again branches, .append (.tag opening inside) (recast.append recast')⟩
  | _, _, @Rest.otherwise bs body inner, legible, whole => by
    simp only [List.forall_mem_append] at legible
    obtain ⟨opening, words, closing⟩ := legible
    obtain ⟨again, recast⟩ := inner.printed words whole
    cases body with
    | nil => exact ⟨.none, .drop closing⟩
    | cons => exact ⟨.otherwise again, .append (.refl opening) (recast.append (.refl closing))⟩
  | _, _, .none, legible, _ => ⟨.none, .refl legible⟩

end

end Phrase

/-! ### What is printed is read again -/

open Phrase Lexer

theorem Terminal.gap_of_text {a : Terminal} (h : a.kind.modeAfter = .text) : a.gap = [] :=
  if_pos (.inl h)

/-- Behind the tokens of a row of nodes there is no space. -/
theorem Phrase.Items.last_gap {ts : List Terminal} {nodes : List Node} (h : Items ts nodes) :
    (ts.getLast?.map gap).getD [] = [] := by
  have last := h.last
  cases last with
  | none => rfl
  | text =>
    rw [List.getLast?_concat]
    exact gap_of_text rfl
  | tag ends =>
    rw [List.getLast?_concat]
    exact gap_of_text (modeAfter_of_ends ends)

/-- **What was read is printed, and what is printed is read as what it was printed from**, if there
is no fraction in it. -/
theorem parse_printed {source : String} {nodes : List Node}
    (accepted : parseTemplate source = .ok nodes) (whole : Node.anyFraction nodes = false) :
    parseTemplate (printed nodes) = .ok nodes := by
  obtain ⟨ts, s, -, row, -, items⟩ := parseTemplate_derives accepted
  obtain ⟨again, recast⟩ := items.printed row.legible whole
  -- The tokens stand behind the end of a tag, and so do those that are printed.
  have behind : ([fixed .tagEnd] ++ (ts ++ [])).IsChain Follows := by
    rw [List.append_nil]
    refine List.isChain_cons.mpr ⟨fun b hb => ⟨?_, nofun⟩, row.follows⟩
    cases row with
    | nil => cases hb
    | cons step _ =>
      cases hb
      exact step.modeBefore.symm
  have behind' := recast.chain behind
  rw [List.append_nil] at behind'
  obtain ⟨first, follows⟩ := List.isChain_cons.mp behind'
  have spelled : (printed nodes).toList = [] ++ spell (Node.row nodes) := String.toList_ofList
  obtain ⟨t, row', rest⟩ := exists_row_of_spell recast.legible follows
    (s := .start (printed nodes)) (List.forall_mem_nil _) (fun some => absurd rfl some)
    (fun a ha => (first a ha).mode) spelled
  rw [again.last_gap] at rest
  exact parseTemplate_of_items row' (ends_of_rest (row'.mode_of_items again rfl) rest) again

/-- An alternative with nothing to do, a comment, crowded tokens, and quotes that are not printed. -/
theorem parse_printed_choice :
    ∃ nodes, parseTemplate ("\x7b%if x<-05%\x7da\x7b##\x7db\x7b%else%\x7d\x7b%endif%\x7d" ++
        "\x7b\x7b'y'|f:3.50\x7d\x7d") = .ok nodes ∧
      printed nodes = "\x7b% if x < -5 %\x7dab\x7b% endif %\x7d" ++
        "\x7b\x7b \"y\" | f : \"3.50\" \x7d\x7d" ∧
      parseTemplate (printed nodes) = .ok nodes := by
  have accepted : parseTemplate ("\x7b%if x<-05%\x7da\x7b##\x7db\x7b%else%\x7d\x7b%endif%\x7d" ++
      "\x7b\x7b'y'|f:3.50\x7d\x7d") =
    .ok [.choice ⟨"x", some (⟨"<"⟩, .int (-5))⟩ [.text "ab"] (.otherwise []),
      .output (.filtered (.literal (.str "y")) ⟨"f", some "3.50"⟩)] := by decide +kernel
  exact ⟨_, accepted, by decide +kernel, parse_printed accepted (by decide)⟩

end Stencil
