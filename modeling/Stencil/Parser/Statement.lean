/-
# Tags and bodies

A body is a row of text, output and tags. Some tags have bodies of their own,
which end at a closing tag; a tag that may close a body does so before it can
mean anything else. The closing tag is read to its end, except `elif`, whose
condition is for the choice that it continues.

Key definitions: `Parse.statementWith`, `Parse.bodyUpTo`, `Parse.body`,
`parseTemplate`.
-/
import Stencil.Parser.Expression

namespace Stencil

namespace Parse

/-- A body together with the token that closed it; the end of the source closes a body that
nothing else may close. -/
abbrev Body := List Node × Option Token

/-- The tags that may close a branch of a choice. -/
def branchClosers : List TokenKind :=
  [.keyword .elifTag, .keyword .elseTag, .keyword .endifTag]

/-- A loop after its first word. -/
def loopWith (body : List TokenKind → Parse Body) : Parse Node := do
  let item ← identifier
  let _ ← expect (.keyword .inWord) .inWord
  let source ← primary
  let f ← filter?
  expectTagEnd
  let (nodes, _) ← body [.keyword .endforTag]
  pure (.loop item source f nodes)

/-- What follows a branch of a choice that the given tag has closed. -/
def alternativeWith (body : List TokenKind → Parse Body) : Nat → Option Token → Parse Alternative
  | 0, _ => exhausted
  | turns + 1, closer =>
    match closer.map Token.kind with
    | some (.keyword .elifTag) => do
      let c ← condition
      expectTagEnd
      let (nodes, closer) ← body branchClosers
      let rest ← alternativeWith body turns closer
      pure (.choice c nodes rest)
    | some (.keyword .elseTag) => do
      let (nodes, _) ← body [.keyword .endifTag]
      pure (.otherwise nodes)
    | _ => pure (.otherwise [])

/-- A choice after its first word. -/
def choiceWith (body : List TokenKind → Parse Body) : Parse Node := do
  let c ← condition
  expectTagEnd
  let (nodes, closer) ← body branchClosers
  let rest ← repeating fun turns => alternativeWith body turns closer
  pure (.choice c nodes rest)

def assignment : Parse Node := do
  let name ← identifier
  expectOperator "=" .equals
  let e ← expression
  expectTagEnd
  pure (.assign name e)

def inheritance : Parse Node := do
  let name ← string
  expectTagEnd
  pure (.inherit name)

def blockWith (body : List TokenKind → Parse Body) : Parse Node := do
  let name ← identifier
  expectTagEnd
  let (nodes, _) ← body [.keyword .endblockTag]
  pure (.block name nodes)

def inclusion : Parse Node := do
  let name ← string
  expectTagEnd
  pure (.inclusion name)

/-- At least one parameter, and the closing parenthesis. -/
def someParameters : Nat → Parse (List String)
  | 0 => exhausted
  | turns + 1 => do
    let name ← identifier
    if ← separator then
      let names ← someParameters turns
      pure (name :: names)
    else pure [name]

/-- The parameters of a macro and the closing parenthesis. -/
def parameters : Parse (List String) := do
  if ← seesOperator ")" then
    let _ ← next
    pure []
  else repeating someParameters

def definitionWith (body : List TokenKind → Parse Body) : Parse Node := do
  let name ← identifier
  expectOperator "(" .parenthesis
  let names ← parameters
  expectTagEnd
  let (nodes, _) ← body [.keyword .endmacroTag]
  pure (.definition name names nodes)

/-- Further names after the first one of an import. -/
def furtherNames : Nat → Parse (List String)
  | 0 => exhausted
  | turns + 1 => do
    if ← sees .tagEnd then pure []
    else
      expectOperator "," .comma
      let name ← identifier
      let names ← furtherNames turns
      pure (name :: names)

def importation : Parse Node := do
  let template ← string
  let _ ← expect (.keyword .importWord) .importWord
  let name ← identifier
  let names ← repeating furtherNames
  expectTagEnd
  pure (.imports template (name :: names))

def parentMark : Parse Node := do
  expectTagEnd
  pure .parent

/-- A tag after its first word. -/
def statementWith (body : List TokenKind → Parse Body) (first : Token) : Parse Node :=
  match first.kind with
  | .keyword .forTag => loopWith body
  | .keyword .ifTag => choiceWith body
  | .keyword .setTag => assignment
  | .keyword .extendsTag => inheritance
  | .keyword .blockTag => blockWith body
  | .keyword .includeTag => inclusion
  | .keyword .macroTag => definitionWith body
  | .keyword .fromTag => importation
  | .keyword .parentTag => parentMark
  | _ => fail (.unexpectedToken first) first.line

/-- An output after its opening delimiter. -/
def output : Parse Node := do
  let e ← expression
  let _ ← expect .variableEnd .variableEnd
  pure (.output e)

/-- The end of a body at a closing tag. -/
def closeBody (closer : Token) : Parse Unit :=
  if closer.kind = .keyword .elifTag then pure () else expectTagEnd

/-- A body that one of some tags closes. -/
def bodyUpTo : Nat → List TokenKind → Parse Body
  | 0, _ => exhausted
  | turns + 1, closers => do
    let t ← read
    match t.kind with
    | .eof =>
      if closers.isEmpty then pure ([], none) else fail (.unclosedBody closers) t.line
    | .text => do
      let (nodes, closer) ← bodyUpTo turns closers
      pure (.text t.value :: nodes, closer)
    | .variableStart => do
      let node ← output
      let (nodes, closer) ← bodyUpTo turns closers
      pure (node :: nodes, closer)
    | .tagStart => do
      let first ← next
      if closers.contains first.kind then
        closeBody first
        pure ([], some first)
      else
        let node ← statementWith (bodyUpTo turns) first
        let (nodes, closer) ← bodyUpTo turns closers
        pure (node :: nodes, closer)
    | _ => fail (.unexpectedToken t) t.line

/-- A body that one of some tags closes, or the end of the source if there are none. -/
def body (closers : List TokenKind) : Parse Body :=
  repeating fun turns => bodyUpTo turns closers

end Parse

/-- The nodes of a template. -/
def parseTemplate (source : String) : Except Failure (List Node) :=
  match Parse.body [] (.ofLexer (.start source)) with
  | .ok ((nodes, _), _) => .ok nodes
  | .error halt => .error halt.failure

end Stencil
