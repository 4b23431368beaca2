/-
# The grammar of templates

A template is a row of terminals, and the grammar says which rows stand for which
nodes. A filter is a name, with a word, a string or a number after a colon; an
expression is a literal, a path or a call, and perhaps a bar with a filter; a
condition is a path, alone or compared with a literal. Some tags stand alone, some
frame a body that a tag of their own closes, and a choice goes on with further
branches. The reader of templates has to look ahead at times; the grammar does not
speak of that.

Key definitions: `Phrase.Filter`, `Phrase.Literal`, `Phrase.Expression`,
`Phrase.Condition`, `Phrase.Simple`, `Phrase.Frame`, `Phrase.Items`.
Key theorems: `Lexer.Step.fixed`.
-/
import Stencil.Parser.Statement
import Stencil.Proofs.Rows

namespace Stencil

/-- How the tokens of a kind are written that are all written the same. -/
def TokenKind.fixed? : TokenKind → Option String
  | .variableStart => some "\x7b\x7b"
  | .variableEnd => some "\x7d\x7d"
  | .tagStart => some "\x7b%"
  | .tagEnd => some "%\x7d"
  | .pipe => some "|"
  | .keyword k => some k.word
  | _ => none

namespace Terminal

/-- The terminal of a kind that is always written the same. -/
def fixed (kind : TokenKind) : Terminal :=
  ⟨kind, kind.fixed?.getD ""⟩

def word (k : Keyword) : Terminal :=
  fixed (.keyword k)

def identifier (name : String) : Terminal :=
  ⟨.identifier, name⟩

def string (text : String) : Terminal :=
  ⟨.string, text⟩

def number (text : String) : Terminal :=
  ⟨.number, text⟩

def operator (symbol : String) : Terminal :=
  ⟨.operator, symbol⟩

end Terminal

/-- Whether a word begins a tag that stands alone or frames a body. -/
def Keyword.opens : Keyword → Bool
  | .forTag => true
  | .ifTag => true
  | .setTag => true
  | .extendsTag => true
  | .blockTag => true
  | .includeTag => true
  | .macroTag => true
  | .fromTag => true
  | .parentTag => true
  | _ => false

/-- The value of a numeral: fractional if it has a point, else an integer, if it is not too long. -/
def Number.value? (text : String) : Option Value :=
  if text.toList.contains '.' then some (.float ((readFloat? text).getD .nan))
  else (parse? text.toList).map .int

namespace Phrase

open Terminal

/-- A filter after its bar. -/
inductive Filter : List Terminal → FilterSpec → Prop
  | bare {name : String} : Filter [identifier name] ⟨name, none⟩
  | word {name text : String} {kind : TokenKind}
    (known : kind = .string ∨ kind = .number ∨ kind = .identifier) :
    Filter [identifier name, operator ":", ⟨kind, text⟩] ⟨name, some text⟩
  | negative {name text : String} :
    Filter [identifier name, operator ":", operator "-", number text] ⟨name, some ("-" ++ text)⟩

/-- A filter with its bar, or nothing. -/
inductive Piped : List Terminal → Option FilterSpec → Prop
  | none : Piped [] none
  | some {ts : List Terminal} {f : FilterSpec} (filter : Filter ts f) :
    Piped (fixed .pipe :: ts) (some f)

/-- A text, a number or a constant. -/
inductive Literal : List Terminal → Value → Prop
  | string {text : String} : Literal [string text] (.str text)
  | number {text : String} {v : Value} (value : Number.value? text = some v) :
    Literal [number text] v
  | negative {text : String} {v : Value} (value : Number.value? text = some v) :
    Literal [operator "-", number text] (Parse.negate v)
  | constant {word : String} {v : Value} (value : Parse.constant? word = some v) :
    Literal [identifier word] v

mutual

/-- An expression without a filter. -/
inductive Primary : List Terminal → Expr → Prop
  | literal {ts : List Terminal} {v : Value} (value : Literal ts v) : Primary ts (.literal v)
  | path {p : String} (free : Parse.constant? p = none) : Primary [identifier p] (.path p)
  | call {name : String} {ts : List Terminal} {es : List Expr} (free : Parse.constant? name = none)
    (arguments : Arguments ts es) : Primary (identifier name :: operator "(" :: ts) (.call name es)

inductive Expression : List Terminal → Expr → Prop
  | bare {ts : List Terminal} {e : Expr} (primary : Primary ts e) : Expression ts e
  | filtered {ts us : List Terminal} {e : Expr} {f : FilterSpec} (primary : Primary ts e)
    (filter : Filter us f) : Expression (ts ++ fixed .pipe :: us) (.filtered e f)

/-- The arguments of a call and its closing parenthesis. -/
inductive Arguments : List Terminal → List Expr → Prop
  | none : Arguments [operator ")"] []
  | some {ts : List Terminal} {es : List Expr} (arguments : SomeArguments ts es) : Arguments ts es

/-- At least one argument, and the closing parenthesis. -/
inductive SomeArguments : List Terminal → List Expr → Prop
  | last {ts : List Terminal} {e : Expr} (expression : Expression ts e) :
    SomeArguments (ts ++ [operator ")"]) [e]
  | more {ts us : List Terminal} {e : Expr} {es : List Expr} (expression : Expression ts e)
    (arguments : SomeArguments us es) : SomeArguments (ts ++ operator "," :: us) (e :: es)

end

/-- A path, alone or compared with a literal. -/
inductive Condition : List Terminal → Stencil.Condition → Prop
  | bare {p : String} : Condition [identifier p] ⟨p, none⟩
  | test {p symbol : String} {ts : List Terminal} {v : Value}
    (known : (Comparison.ofSymbol? symbol).isSome = true) (value : Literal ts v) :
    Condition (identifier p :: operator symbol :: ts) ⟨p, some (⟨symbol⟩, v)⟩

/-- At least one parameter, and the closing parenthesis. -/
inductive SomeParameters : List Terminal → List String → Prop
  | last {name : String} : SomeParameters [identifier name, operator ")"] [name]
  | more {name : String} {ts : List Terminal} {names : List String}
    (parameters : SomeParameters ts names) :
    SomeParameters (identifier name :: operator "," :: ts) (name :: names)

/-- The parameters of a macro and the closing parenthesis. -/
inductive Parameters : List Terminal → List String → Prop
  | none : Parameters [operator ")"] []
  | some {ts : List Terminal} {names : List String} (parameters : SomeParameters ts names) :
    Parameters ts names

/-- Further names after the first one of an import. -/
inductive FurtherNames : List Terminal → List String → Prop
  | none : FurtherNames [] []
  | more {name : String} {ts : List Terminal} {names : List String}
    (further : FurtherNames ts names) :
    FurtherNames (operator "," :: identifier name :: ts) (name :: names)

/-- A tag with a reserved word in front. -/
def tag (k : Keyword) (ts : List Terminal) : List Terminal :=
  fixed .tagStart :: word k :: (ts ++ [fixed .tagEnd])

/-- What stands in a tag that has no body, behind its first word. -/
inductive Simple : Keyword → List Terminal → Node → Prop
  | assign {name : String} {ts : List Terminal} {e : Expr} (expression : Expression ts e) :
    Simple .setTag (identifier name :: operator "=" :: ts) (.assign name e)
  | inherit {template : String} : Simple .extendsTag [string template] (.inherit template)
  | inclusion {template : String} : Simple .includeTag [string template] (.inclusion template)
  | imports {template name : String} {ts : List Terminal} {names : List String}
    (further : FurtherNames ts names) :
    Simple .fromTag (string template :: word .importWord :: identifier name :: ts)
      (.imports template (name :: names))
  | parent : Simple .parentTag [] .parent

/-- What stands in a tag that frames a body, behind its first word, with the word that closes the
body and what becomes of the body. -/
inductive Frame : Keyword → Keyword → List Terminal → (List Node → Node) → Prop
  | loop {item : String} {ts us : List Terminal} {e : Expr} {f : Option FilterSpec}
    (source : Primary ts e) (filter : Piped us f) :
    Frame .forTag .endforTag (identifier item :: word .inWord :: (ts ++ us)) (.loop item e f)
  | block {name : String} : Frame .blockTag .endblockTag [identifier name] (.block name)
  | definition {name : String} {ts : List Terminal} {names : List String}
    (parameters : Parameters ts names) :
    Frame .macroTag .endmacroTag (identifier name :: operator "(" :: ts) (.definition name names)

/-- Text, output, or a tag that has no body. -/
inductive Plain : List Terminal → Node → Prop
  | text {s : String} : Plain [⟨.text, s⟩] (.text s)
  | output {ts : List Terminal} {e : Expr} (expression : Expression ts e) :
    Plain (fixed .variableStart :: (ts ++ [fixed .variableEnd])) (.output e)
  | tag {k : Keyword} {ts : List Terminal} {node : Node} (simple : Simple k ts node) :
    Plain (tag k ts) node

mutual

/-- The nodes of a body in a row. -/
inductive Items : List Terminal → List Node → Prop
  | nil : Items [] []
  | plain {ts us : List Terminal} {node : Node} {nodes : List Node} (first : Plain ts node)
    (rest : Items us nodes) : Items (ts ++ us) (node :: nodes)
  | frame {k closer : Keyword} {ts bs us : List Terminal} {make : List Node → Node}
    {body nodes : List Node} (first : Frame k closer ts make) (inner : Items bs body)
    (rest : Items us nodes) :
    Items (tag k ts ++ (bs ++ (tag closer [] ++ us))) (make body :: nodes)
  | choice {ts bs as us : List Terminal} {c : Stencil.Condition} {body nodes : List Node}
    {otherwise : Alternative} (first : Condition ts c) (inner : Items bs body)
    (other : Rest as otherwise) (rest : Items us nodes) :
    Items (tag .ifTag ts ++ (bs ++ (as ++ us))) (.choice c body otherwise :: nodes)

/-- What follows a branch of a choice, from the tag that closes the branch to the end of the
choice. -/
inductive Rest : List Terminal → Alternative → Prop
  | elif {ts bs as : List Terminal} {c : Stencil.Condition} {body : List Node}
    {otherwise : Alternative} (first : Condition ts c) (inner : Items bs body)
    (other : Rest as otherwise) :
    Rest (tag .elifTag ts ++ (bs ++ as)) (.choice c body otherwise)
  | otherwise {bs : List Terminal} {body : List Node} (inner : Items bs body) :
    Rest (tag .elseTag [] ++ (bs ++ tag .endifTag [])) (.otherwise body)
  | none : Rest (tag .endifTag []) (.otherwise [])

end

theorem Simple.opens {k : Keyword} {ts : List Terminal} {node : Node} (h : Simple k ts node) :
    k.opens = true := by
  cases h <;> rfl

theorem Frame.opens {k closer : Keyword} {ts : List Terminal} {make : List Node → Node}
    (h : Frame k closer ts make) : k.opens = true := by
  cases h <;> rfl

/-- The word that closes a framed body begins no tag, and it is not `elif`. -/
theorem Frame.closes {k closer : Keyword} {ts : List Terminal} {make : List Node → Node}
    (h : Frame k closer ts make) : closer.opens = false ∧ closer ≠ .elifTag := by
  cases h <;> exact ⟨rfl, nofun⟩

theorem Plain.length_pos {ts : List Terminal} {node : Node} (h : Plain ts node) :
    0 < ts.length := by
  cases h <;> exact Nat.succ_pos _

end Phrase

namespace Lexer

theorem Lexeme.fixed {kind : TokenKind} {value : String} {x y : List Char}
    (lex : Lexeme kind value x y) : ∀ v ∈ kind.fixed?, value = v := by
  cases lex with
  | variableEnd => exact fun _ => Option.some.inj
  | tagEnd => exact fun _ => Option.some.inj
  | @name c tail _ first stop =>
    intro v hv
    unfold wordKind at hv
    split at hv
    · next k found =>
      have same : k.word = String.ofList (c :: tail) := by
        have := List.find?_some found
        simpa using this
      rw [← same]
      exact Option.some.inj hv
    · cases hv
  | number => exact nofun
  | string => exact nofun
  | pipe => exact fun _ => Option.some.inj
  | paired => exact nofun
  | single => exact nofun

theorem Ahead.fixed {m : Mode} {cs skipped written rest : List Char} {kind : TokenKind}
    {value : String} (h : Ahead m cs (.token skipped kind value written rest)) :
    ∀ v ∈ kind.fixed?, value = v := by
  cases h with
  | text passes closed some => exact nofun
  | @opening _ _ r c passes closed none found =>
    rcases passes.delimiter closed found with rfl | rfl
    · exact fun _ => Option.some.inj
    · exact fun _ => Option.some.inj
  | lexeme blank lex => exact lex.fixed

/-- A token of a kind that is always written the same is the terminal of that kind. -/
theorem Step.fixed {s s' : Lexer} {a : Terminal} (h : Step s a s') {kind : TokenKind}
    (same : a.kind = kind) (fixed : kind.fixed?.isSome = true) : a = .fixed kind := by
  obtain ⟨skipped, written, ahead, -⟩ := h.ahead
  obtain ⟨v, hv⟩ := Option.isSome_iff_exists.mp fixed
  obtain ⟨_, value⟩ := a
  subst same
  have spelled := ahead.fixed v hv
  dsimp only at spelled hv ⊢
  rw [Terminal.fixed, hv, spelled]
  rfl

end Lexer

end Stencil
