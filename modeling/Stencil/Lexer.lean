/-
# From source to tokens

The lexer reads the source from front to back in two modes. In text it looks
for the next delimiter; comments are dropped on the way, and the text around
them is one token. Inside a tag it skips blanks and reads one word, number,
string or operator at a time. A read either gives a token or fails; it moves
the lexer in both cases, past what it could make sense of.

A comment that is not closed hides the rest of the source, so the text before
it is passed and the failure is where the comment opens.

Key definitions: `Lexer`, `Lexer.next`, `Lexer.peek`, `Lexer.scan`, `tokenize`.
Key theorems: `Lexer.region_split`.
-/
import Stencil.Error
import Stencil.Text.Blank
import Stencil.Text.Digits
import Stencil.Text.Letters

namespace Stencil

/-- Between tags or inside one. -/
inductive Mode where
  | text
  | expression
  deriving DecidableEq, Repr

/-- A place in the source: what is left of it, how many characters were read, and the line. -/
structure Lexer where
  rest : List Char
  position : Nat
  line : Nat
  mode : Mode
  deriving DecidableEq, Repr

namespace Lexer

/-- At the start of a source. -/
def start (source : String) : Lexer :=
  ⟨source.toList, 0, 1, .text⟩

/-- The newlines in a text. -/
def newlines (cs : List Char) : Nat :=
  cs.count '\n'

/-- The lexer after some characters that stand before `rest`. -/
def advance (s : Lexer) (passed rest : List Char) : Lexer :=
  { s with rest, position := s.position + passed.length, line := s.line + newlines passed }

/-- Text with the comments in it: what is passed, what of it is text, what is left, and whether
that begins with a comment that never ends. -/
structure Region where
  passed : List Char
  text : List Char
  rest : List Char
  unterminated : Bool

namespace Region

/-- Nothing passed. -/
def stop (rest : List Char) : Region := ⟨[], [], rest, false⟩

/-- One more character of text in front. -/
def keep (c : Char) (r : Region) : Region := { r with passed := c :: r.passed, text := c :: r.text }

/-- Characters of a comment in front. -/
def drop (cs : List Char) (r : Region) : Region := { r with passed := cs ++ r.passed }

end Region

mutual

/-- Text up to the next delimiter. -/
def region : List Char → Region
  | [] => .stop []
  | '\x7b' :: '\x7b' :: cs => .stop ('\x7b' :: '\x7b' :: cs)
  | '\x7b' :: '%' :: cs => .stop ('\x7b' :: '%' :: cs)
  | '\x7b' :: '#' :: cs =>
    match comment cs with
    | some r => r.drop ['\x7b', '#']
    | none => ⟨[], [], '\x7b' :: '#' :: cs, true⟩
  | c :: cs => (region cs).keep c

/-- The rest of a comment and the text after it, unless the comment never ends. -/
def comment : List Char → Option Region
  | [] => none
  | '#' :: '\x7d' :: cs => some ((region cs).drop ['#', '\x7d'])
  | c :: cs => (comment cs).map (·.drop [c])

end

/-- A read in text: the text up to the next delimiter, or the delimiter, or the end. -/
def nextInText (s : Lexer) : Except Failure Token × Lexer :=
  let r := region s.rest
  let after := s.advance r.passed r.rest
  if r.unterminated then (.error (Failure.onLine .unterminatedComment after.line), after)
  else if r.text ≠ [] then (.ok ⟨.text, String.ofList r.text, s.line⟩, after)
  else
    match r.rest with
    | a :: b :: rest =>
      let kind := if b = '\x7b' then TokenKind.variableStart else TokenKind.tagStart
      (.ok ⟨kind, String.ofList [a, b], after.line⟩,
        { after.advance [a, b] rest with mode := .expression })
    | _ => (.ok ⟨.eof, "", after.line⟩, after)

/-- A character of a name. -/
def isWordChar (c : Char) : Bool :=
  c.isAlphanum || c = '_'

/-- The rest of a name: word characters, and points between them. -/
def nameTail : List Char → List Char × List Char
  | [] => ([], [])
  | c :: cs =>
    if isWordChar c then (c :: (nameTail cs).1, (nameTail cs).2)
    else if c = '.' && (cs.head?.map isWordChar).getD false then (c :: (nameTail cs).1, (nameTail cs).2)
    else ([], c :: cs)

/-- Digits, and a point with digits after it if there is one. -/
def numeral (cs : List Char) : List Char × List Char :=
  let whole := cs.takeWhile Char.isDigit
  match cs.dropWhile Char.isDigit with
  | '.' :: more =>
    let fraction := more.takeWhile Char.isDigit
    if fraction.isEmpty then (whole, '.' :: more)
    else (whole ++ '.' :: fraction, more.dropWhile Char.isDigit)
  | rest => (whole, rest)

/-- The operators of two characters. -/
def pairedOperators : List (List Char) :=
  [['=', '='], ['!', '='], ['<', '='], ['>', '=']]

/-- The kind of a name: a reserved word or an identifier. -/
def wordKind (word : String) : TokenKind :=
  match Keyword.ofWord? word with
  | some k => .keyword k
  | none => .identifier

/-- A token that is its own text. -/
def lexeme (s : Lexer) (kind : TokenKind) (cs rest : List Char) : Except Failure Token × Lexer :=
  (.ok ⟨kind, String.ofList cs, s.line⟩, s.advance cs rest)

/-- A delimiter that ends a tag. -/
def closing (s : Lexer) (kind : TokenKind) (cs rest : List Char) : Except Failure Token × Lexer :=
  (.ok ⟨kind, String.ofList cs, s.line⟩, { s.advance cs rest with mode := .text })

/-- A read inside a tag, with no blank ahead. -/
def nextAhead (s : Lexer) : Except Failure Token × Lexer :=
  match s.rest with
  | [] => (.ok ⟨.eof, "", s.line⟩, s)
  | '\x7d' :: '\x7d' :: rest => s.closing .variableEnd ['\x7d', '\x7d'] rest
  | '%' :: '\x7d' :: rest => s.closing .tagEnd ['%', '\x7d'] rest
  | c :: rest =>
    if Text.isLetter c || c = '_' then
      if c.toNat < 0x80 then
        let (tail, rest) := nameTail rest
        s.lexeme (wordKind (String.ofList (c :: tail))) (c :: tail) rest
      else (.error (.fault .strayCharacter), s)
    else if Text.isDigit c then
      if c.toNat < 0x80 then
        let (digits, rest) := numeral (c :: rest)
        s.lexeme .number digits rest
      else (.error (.fault .strayCharacter), s)
    else if c = '"' || c = '\'' then
      let value := rest.takeWhile (· ≠ c)
      match rest.dropWhile (· ≠ c) with
      | [] => (.error (Failure.onLine .unterminatedString s.line), s)
      | _ :: after =>
        (.ok ⟨.string, String.ofList value, s.line⟩, s.advance (c :: value ++ [c]) after)
    else if c = '|' then s.lexeme .pipe [c] rest
    else
      match rest with
      | d :: after =>
        if pairedOperators.contains [c, d] then s.lexeme .operator [c, d] after
        else s.lexeme .operator [c] rest
      | [] => s.lexeme .operator [c] rest

/-- A read inside a tag. -/
def nextInExpression (s : Lexer) : Except Failure Token × Lexer :=
  let blanks := s.rest.takeWhile Text.isBlank
  (s.advance blanks (s.rest.dropWhile Text.isBlank)).nextAhead

/-- The next token, or why there is none, and the lexer after it. At the end of the source it is
the end, again and again. -/
def next (s : Lexer) : Except Failure Token × Lexer :=
  match s.mode with
  | .text => s.nextInText
  | .expression => s.nextInExpression

/-- The next token, without moving. -/
def peek (s : Lexer) : Except Failure Token :=
  s.next.1

end Lexer

/-- All tokens ahead of a lexer, each with the lexer after it. It is the end of the source or the
first failure that ends the row. -/
inductive Scan where
  | token (t : Token) (after : Lexer) (rest : Scan)
  | finish (t : Token) (after : Lexer)
  | broken (failure : Failure) (after : Lexer)
  deriving Repr

/-- The next `count` tokens at most; the row is taken to end where the count does. -/
def Lexer.scanUpTo : Nat → Lexer → Scan
  | 0, s => .finish ⟨.eof, "", s.line⟩ s
  | count + 1, s =>
    match s.next with
    | (.ok t, after) =>
      if t.kind = .eof then .finish t after else .token t after (scanUpTo count after)
    | (.error failure, after) => .broken failure after

/-- All tokens ahead. Each has a character of its own, so there are at most as many of them as
there are characters. -/
def Lexer.scan (s : Lexer) : Scan :=
  scanUpTo (s.rest.length + 1) s

namespace Scan

/-- The number of tokens before the end or the failure. -/
def size : Scan → Nat
  | token _ _ rest => rest.size + 1
  | finish _ _ => 0
  | broken _ _ => 0

/-- The tokens in order with the one for the end, unless there is a failure. -/
def tokens : Scan → Except Failure (List Token)
  | token t _ rest => rest.tokens.map (t :: ·)
  | finish t _ => .ok [t]
  | broken failure _ => .error failure

end Scan

/-- The tokens of a source; the last one is its end. -/
def tokenize (source : String) : Except Failure (List Token) :=
  (Lexer.start source).scan.tokens

namespace Lexer

/-- A region or the end of a comment is a beginning of the text. -/
theorem region_comment_split :
    (∀ cs, (region cs).passed ++ (region cs).rest = cs) ∧
      ∀ cs, ∀ r ∈ comment cs, r.passed ++ r.rest = cs := by
  apply region.mutual_induct
  case case1 => simp [region, Region.stop]
  case case2 => intros; simp [region, Region.stop]
  case case3 => intros; simp [region, Region.stop]
  case case4 =>
    intro cs r h ih
    simp_all [region, Region.drop]
  case case5 =>
    intro cs h ih
    simp [region, h]
  case case6 =>
    intro c cs h1 h2 h3 ih
    rw [region.eq_5 c cs h1 h2 h3]
    simpa [Region.keep] using ih
  case case7 => simp [comment]
  case case8 =>
    intro cs ih
    simpa [comment, Region.drop] using ih
  case case9 =>
    intro c cs h ih
    rw [comment.eq_3 c cs h]
    simpa [Region.drop] using ih

/-- What is passed and what is left are the text. -/
theorem region_split (cs : List Char) : (region cs).passed ++ (region cs).rest = cs :=
  region_comment_split.1 cs

end Lexer

end Stencil
