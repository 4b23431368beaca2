/-
# Tokens of YAML

A text in YAML is a row of tokens. Brackets, dashes, colons and the like have a
token each; the indentation of lines shows in tokens that start and end blocks,
and a key that is written without a question mark has a token before it too.

Key definitions: `Yaml.Scalar`, `Yaml.Token`.
-/
namespace Stencil.Yaml

/-- A text in quotes or blocks, or without; without them it may mean something else than text. -/
structure Scalar where
  quoted : Bool
  text : List Char
  deriving DecidableEq, Repr

inductive Token where
  /-- The version that a document is written for. -/
  | version (major minor : Nat)
  /-- A short form for the beginning of tags. -/
  | shortForm (handle expansion : List Char)
  | documentStart
  | documentEnd
  | listStart
  | mappingStart
  | blockEnd
  | flowListStart
  | flowListEnd
  | flowMappingStart
  | flowMappingEnd
  /-- The dash of a list in block style. -/
  | dash
  | comma
  | key
  | value
  | anchor (name : List Char)
  | alias (name : List Char)
  | tag (handle suffix : List Char)
  | scalar (s : Scalar)
  deriving DecidableEq, Repr

end Stencil.Yaml
