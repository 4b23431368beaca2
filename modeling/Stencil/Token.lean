/-
# Tokens

The source of a template is text with tags in it. Between its delimiters a tag
holds names, strings, numbers, operators and reserved words.

Key definitions: `Keyword`, `TokenKind`, `Token`.
-/
namespace Stencil

/-- The reserved words. -/
inductive Keyword where
  | forTag
  | inWord
  | ifTag
  | elifTag
  | elseTag
  | setTag
  | endforTag
  | endifTag
  | extendsTag
  | blockTag
  | endblockTag
  | includeTag
  | macroTag
  | endmacroTag
  | fromTag
  | importWord
  | parentTag
  deriving DecidableEq, Repr

namespace Keyword

def all : List Keyword :=
  [forTag, inWord, ifTag, elifTag, elseTag, setTag, endforTag, endifTag, extendsTag, blockTag,
    endblockTag, includeTag, macroTag, endmacroTag, fromTag, importWord, parentTag]

/-- The word as it is written. -/
def word : Keyword → String
  | forTag => "for"
  | inWord => "in"
  | ifTag => "if"
  | elifTag => "elif"
  | elseTag => "else"
  | setTag => "set"
  | endforTag => "endfor"
  | endifTag => "endif"
  | extendsTag => "extends"
  | blockTag => "block"
  | endblockTag => "endblock"
  | includeTag => "include"
  | macroTag => "macro"
  | endmacroTag => "endmacro"
  | fromTag => "from"
  | importWord => "import"
  | parentTag => "parent"

/-- The name of the word's kind of token. -/
def label : Keyword → String
  | forTag => "FOR"
  | inWord => "IN"
  | ifTag => "IF"
  | elifTag => "ELIF"
  | elseTag => "ELSE"
  | setTag => "SET"
  | endforTag => "ENDFOR"
  | endifTag => "ENDIF"
  | extendsTag => "EXTENDS"
  | blockTag => "BLOCK"
  | endblockTag => "ENDBLOCK"
  | includeTag => "INCLUDE"
  | macroTag => "MACRO"
  | endmacroTag => "ENDMACRO"
  | fromTag => "FROM"
  | importWord => "IMPORT"
  | parentTag => "PARENT"

/-- The reserved word that is written so. -/
def ofWord? (s : String) : Option Keyword :=
  all.find? fun k => k.word == s

theorem mem_all (k : Keyword) : k ∈ all := by
  cases k <;> decide

theorem ofWord?_word (k : Keyword) : ofWord? k.word = some k := by
  cases k <;> decide

end Keyword

/-- The kinds of tokens. -/
inductive TokenKind where
  | text
  | variableStart
  | variableEnd
  | tagStart
  | tagEnd
  | identifier
  | string
  | number
  | operator
  | pipe
  | keyword (k : Keyword)
  | eof
  deriving DecidableEq, Repr

namespace TokenKind

/-- The name of a kind, as messages give it. -/
def label : TokenKind → String
  | text => "TEXT"
  | variableStart => "VARIABLE_START"
  | variableEnd => "VARIABLE_END"
  | tagStart => "TAG_START"
  | tagEnd => "TAG_END"
  | identifier => "IDENTIFIER"
  | string => "STRING"
  | number => "NUMBER"
  | operator => "OPERATOR"
  | pipe => "PIPE"
  | keyword k => k.label
  | eof => "EOF"

def all : List TokenKind :=
  [text, variableStart, variableEnd, tagStart, tagEnd, identifier, string, number, operator, pipe,
    eof] ++ Keyword.all.map keyword

/-- The kind with a name. -/
def ofLabel? (s : String) : Option TokenKind :=
  all.find? fun k => k.label == s

/-- The name of a kind in small letters. -/
def shortLabel : TokenKind → String
  | text => "text"
  | variableStart => "variable_start"
  | variableEnd => "variable_end"
  | tagStart => "tag_start"
  | tagEnd => "tag_end"
  | identifier => "identifier"
  | string => "string"
  | number => "number"
  | operator => "operator"
  | pipe => "pipe"
  | keyword k => k.word
  | eof => "eof"

end TokenKind

/-- A token with the line on which it was found. The value of a string is what stands between its
quotes; of every other token it is the text of the source, less the comments. -/
structure Token where
  kind : TokenKind
  value : String
  line : Nat
  deriving DecidableEq, Repr

/-- The operator that is written so. -/
def Token.isOperator (t : Token) (symbol : String) : Bool :=
  t.kind = .operator && t.value == symbol

end Stencil
