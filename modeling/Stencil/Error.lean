/-
# Errors

What can go wrong in a template is a cause: an inductive type with the data
that the message needs. A cause has a code for programs, a detail for people,
and a category; the categories form a tree. An error is a cause together with
the place where it arose, as far as it is known: a line, and the name of a
template, which is attached once and never replaced.

Some inputs stop the program without an error of this kind. Such a stop is a
fault; it is kept apart from errors, so that nothing that handles errors takes
it for one.

Key definitions: `Code`, `Category`, `Cause`, `TemplateError`,
`TemplateError.message`, `TemplateError.withTemplate`, `Fault`, `Failure`.
Key theorems: `TemplateError.withTemplate_withTemplate`,
`TemplateError.template_withTemplate`.
-/
import Stencil.Token
import Stencil.Text.Quoted

namespace Stencil

/-- The kinds of errors. -/
inductive Code where
  | unterminatedString
  | unexpectedEof
  | unexpectedToken
  | expectedIdentifier
  | expectedString
  | expectedOperator
  | expectedEquals
  | expectedComma
  | expectedVariableEnd
  | expectedTagEnd
  | expectedIn
  | expectedImport
  | invalidLiteral
  | invalidPrimary
  | variableNotFound
  | iterableNotArray
  | invalidPath
  | unsupportedOp
  | unknownFunction
  | functionNotFound
  | tooFewArguments
  | tooManyArguments
  | invalidArguments
  | invalidMacroArgs
  | invalidType
  | emptyArray
  | constantNotFound
  | maxDepthExceeded
  | templateNotFound
  | templateLoadFailed
  | circularInheritance
  deriving DecidableEq, Repr

namespace Code

def all : List Code :=
  [unterminatedString, unexpectedEof, unexpectedToken, expectedIdentifier, expectedString,
    expectedOperator, expectedEquals, expectedComma, expectedVariableEnd, expectedTagEnd,
    expectedIn, expectedImport, invalidLiteral, invalidPrimary, variableNotFound,
    iterableNotArray, invalidPath, unsupportedOp, unknownFunction, functionNotFound,
    tooFewArguments, tooManyArguments, invalidArguments, invalidMacroArgs, invalidType, emptyArray,
    constantNotFound, maxDepthExceeded, templateNotFound, templateLoadFailed, circularInheritance]

/-- The name of a kind of error. -/
def text : Code → String
  | unterminatedString => "UnterminatedString"
  | unexpectedEof => "UnexpectedEof"
  | unexpectedToken => "UnexpectedToken"
  | expectedIdentifier => "ExpectedIdentifier"
  | expectedString => "ExpectedString"
  | expectedOperator => "ExpectedOperator"
  | expectedEquals => "ExpectedEquals"
  | expectedComma => "ExpectedComma"
  | expectedVariableEnd => "ExpectedVariableEnd"
  | expectedTagEnd => "ExpectedTagEnd"
  | expectedIn => "ExpectedIn"
  | expectedImport => "ExpectedImport"
  | invalidLiteral => "InvalidLiteral"
  | invalidPrimary => "InvalidPrimary"
  | variableNotFound => "VariableNotFound"
  | iterableNotArray => "IterableNotArray"
  | invalidPath => "InvalidPath"
  | unsupportedOp => "UnsupportedOp"
  | unknownFunction => "UnknownFunction"
  | functionNotFound => "FunctionNotFound"
  | tooFewArguments => "TooFewArguments"
  | tooManyArguments => "TooManyArguments"
  | invalidArguments => "InvalidArguments"
  | invalidMacroArgs => "InvalidMacroArgs"
  | invalidType => "InvalidType"
  | emptyArray => "EmptyArray"
  | constantNotFound => "ConstantNotFound"
  | maxDepthExceeded => "MaxDepthExceeded"
  | templateNotFound => "TemplateNotFound"
  | templateLoadFailed => "TemplateLoadFailed"
  | circularInheritance => "CircularInheritance"

/-- The kind of error with a name. -/
def ofText? (s : String) : Option Code :=
  all.find? fun c => c.text == s

end Code

/-- Where in its life a template failed. -/
inductive Category where
  | general
  | syntactic
  | lexical
  | grammatical
  | evaluation
  | rendering
  | calling
  | nesting
  | loading
  | missing
  | cyclic
  deriving DecidableEq, Repr

namespace Category

def all : List Category :=
  [general, syntactic, lexical, grammatical, evaluation, rendering, calling, nesting, loading,
    missing, cyclic]

/-- The name of a category. -/
def text : Category → String
  | general => "TemplateError"
  | syntactic => "TemplateSyntaxError"
  | lexical => "LexerError"
  | grammatical => "ParserError"
  | evaluation => "TemplateRuntimeError"
  | rendering => "RenderError"
  | calling => "FunctionCallError"
  | nesting => "MaxDepthExceededError"
  | loading => "TemplateLoadError"
  | missing => "TemplateNotFoundError"
  | cyclic => "CircularInheritanceError"

def ofText? (s : String) : Option Category :=
  all.find? fun c => c.text == s

/-- The categories that a category belongs to, nearest first, itself included. -/
def ancestors : Category → List Category
  | general => [general]
  | syntactic => [syntactic, general]
  | lexical => [lexical, syntactic, general]
  | grammatical => [grammatical, syntactic, general]
  | evaluation => [evaluation, general]
  | rendering => [rendering, evaluation, general]
  | calling => [calling, evaluation, general]
  | nesting => [nesting, evaluation, general]
  | loading => [loading, general]
  | missing => [missing, loading, general]
  | cyclic => [cyclic, loading, general]

/-- Whether a category lies within another. -/
def within (c d : Category) : Bool :=
  c.ancestors.contains d

end Category

/-- What the grammar wants at some place. -/
inductive Want where
  | identifier
  | string
  | inWord
  | importWord
  | variableEnd
  | tagEnd
  /-- A comparison operator. -/
  | comparison
  | literal
  /-- The head of an expression. -/
  | primary
  /-- A comma or a closing parenthesis. -/
  | separator
  /-- An opening parenthesis after the name of a macro. -/
  | parenthesis
  | equals
  /-- A comma between imported names. -/
  | comma
  deriving DecidableEq, Repr

namespace Want

def code : Want → Code
  | identifier => .expectedIdentifier
  | string => .expectedString
  | inWord => .expectedIn
  | importWord => .expectedImport
  | variableEnd => .expectedVariableEnd
  | tagEnd => .expectedTagEnd
  | comparison => .expectedOperator
  | literal => .invalidLiteral
  | primary => .invalidPrimary
  | separator => .expectedComma
  | parenthesis => .unexpectedToken
  | equals => .expectedEquals
  | comma => .expectedComma

/-- The one symbol that is wanted, where the message names it. -/
def symbol? : Want → Option String
  | parenthesis => some "("
  | equals => some "="
  | comma => some ","
  | _ => none

end Want

/-- Why a template failed. -/
inductive Cause where
  | unterminatedString
  | unterminatedComment
  /-- The source ends inside a tag. -/
  | unclosedTag
  /-- The source ends inside a body that one of some tags has to close. -/
  | unclosedBody (closers : List TokenKind)
  | unexpectedToken (got : Token)
  | wanted (want : Want) (got : Token)
  | variableNotFound (path : String)
  /-- A path is looked up where there are no variables at all. -/
  | noContext (path : String)
  /-- A path goes on through a value that has no parts. -/
  | noParts (path segment typeName : String)
  | notIterable (typeName : String)
  /-- An include that was not resolved before rendering. -/
  | unresolvedInclude (template : String)
  | unsupportedOperator (op : String)
  | unknownFunction (name : String)
  | macroNotDefined (name template : String)
  | macroArity (name : String) (expected got : Nat)
  | macroDepth (name : String) (limit : Int)
  | functionNotFound (name : String)
  | tooFewArguments (name : String) (expected : Int) (got : Nat)
  | tooManyArguments (name : String) (expected : Int) (got : Nat)
  | notFinite (argument value : String)
  | notANumber (argument typeName : String)
  | notAnArray (typeName : String)
  | emptyArray
  | emptyRange (low high : Int)
  | formatNotText
  | timestampNotNumber
  | timestampOutOfRange (value : String)
  | valuesNotArray
  | positionNotInteger
  | constantNotText
  | constantNotFound (name : String)
  | templateNotFound (name : String)
  /-- A template is there and cannot be read; the reason may be unknown. -/
  | loadFailed (name : String) (reason : Option String)
  /-- Templates that lead from one to the next, the last one being among those before it. -/
  | circular (chain : List String)
  | templateNesting (limit : Int)
  /-- A block stands inside a version of itself. -/
  | selfContained (block : String)
  /-- An error of someone else's making. -/
  | raised (category : Category) (code : Code) (detail : String)
  deriving DecidableEq, Repr

namespace Cause

def category : Cause → Category
  | unterminatedString => .lexical
  | unterminatedComment => .lexical
  | unclosedTag => .grammatical
  | unclosedBody _ => .grammatical
  | unexpectedToken _ => .grammatical
  | wanted _ _ => .grammatical
  | variableNotFound _ => .rendering
  | noContext _ => .rendering
  | noParts _ _ _ => .rendering
  | notIterable _ => .rendering
  | unresolvedInclude _ => .rendering
  | unsupportedOperator _ => .rendering
  | unknownFunction _ => .rendering
  | macroNotDefined _ _ => .rendering
  | macroArity _ _ _ => .rendering
  | macroDepth _ _ => .nesting
  | functionNotFound _ => .calling
  | tooFewArguments _ _ _ => .calling
  | tooManyArguments _ _ _ => .calling
  | notFinite _ _ => .calling
  | notANumber _ _ => .calling
  | notAnArray _ => .calling
  | emptyArray => .calling
  | emptyRange _ _ => .calling
  | formatNotText => .calling
  | timestampNotNumber => .calling
  | timestampOutOfRange _ => .calling
  | valuesNotArray => .calling
  | positionNotInteger => .calling
  | constantNotText => .calling
  | constantNotFound _ => .calling
  | templateNotFound _ => .missing
  | loadFailed _ _ => .loading
  | circular _ => .cyclic
  | templateNesting _ => .nesting
  | selfContained _ => .nesting
  | raised category _ _ => category

def code : Cause → Code
  | unterminatedString => .unterminatedString
  | unterminatedComment => .unexpectedEof
  | unclosedTag => .unexpectedEof
  | unclosedBody _ => .unexpectedEof
  | unexpectedToken _ => .unexpectedToken
  | wanted want _ => want.code
  | variableNotFound _ => .variableNotFound
  | noContext _ => .invalidPath
  | noParts _ _ _ => .invalidPath
  | notIterable _ => .iterableNotArray
  | unresolvedInclude _ => .unsupportedOp
  | unsupportedOperator _ => .unsupportedOp
  | unknownFunction _ => .unknownFunction
  | macroNotDefined _ _ => .unknownFunction
  | macroArity _ _ _ => .invalidMacroArgs
  | macroDepth _ _ => .maxDepthExceeded
  | functionNotFound _ => .functionNotFound
  | tooFewArguments _ _ _ => .tooFewArguments
  | tooManyArguments _ _ _ => .tooManyArguments
  | notFinite _ _ => .invalidArguments
  | notANumber _ _ => .invalidType
  | notAnArray _ => .invalidType
  | emptyArray => .emptyArray
  | emptyRange _ _ => .invalidArguments
  | formatNotText => .invalidType
  | timestampNotNumber => .invalidType
  | timestampOutOfRange _ => .invalidArguments
  | valuesNotArray => .invalidType
  | positionNotInteger => .invalidType
  | constantNotText => .invalidType
  | constantNotFound _ => .constantNotFound
  | templateNotFound _ => .templateNotFound
  | loadFailed _ _ => .templateLoadFailed
  | circular _ => .circularInheritance
  | templateNesting _ => .maxDepthExceeded
  | selfContained _ => .maxDepthExceeded
  | raised _ code _ => code

/-- A token as messages show it. -/
def describe (t : Token) : String :=
  "got " ++ t.kind.label ++ " " ++ Text.quote t.value

/-- The description of a cause, without the place; it may be empty. -/
def detail : Cause → String
  | unterminatedString => "missing closing quote"
  | unterminatedComment => "unterminated comment"
  | unclosedTag => "unclosed tag or expression"
  | unclosedBody closers => "expected " ++ ", ".intercalate (closers.map TokenKind.shortLabel)
  | unexpectedToken got => describe got
  | wanted want got =>
    match want.symbol? with
    | some symbol => "expected '" ++ symbol ++ "', " ++ describe got
    | none => describe got
  | variableNotFound path => "'" ++ path ++ "'"
  | noContext path => "'" ++ path ++ "': context is not an object"
  | noParts path segment typeName =>
    "'" ++ path ++ "': cannot access '" ++ segment ++ "' on " ++ typeName
  | notIterable typeName => "cannot iterate over " ++ typeName
  | unresolvedInclude template => "include of '" ++ template ++ "' must be resolved by the engine"
  | unsupportedOperator op => "operator '" ++ op ++ "'"
  | unknownFunction name => "'" ++ name ++ "'"
  | macroNotDefined name template => "macro '" ++ name ++ "' is not defined in '" ++ template ++ "'"
  | macroArity name expected got =>
    "macro '" ++ name ++ "' expects " ++ toString expected ++ " argument(s), got " ++ toString got
  | macroDepth name limit => "macro '" ++ name ++ "' nested deeper than " ++ toString limit
  | functionNotFound name => "'" ++ name ++ "'"
  | tooFewArguments name expected got =>
    "'" ++ name ++ "' expects at least " ++ toString expected ++ ", got " ++ toString got
  | tooManyArguments name expected got =>
    "'" ++ name ++ "' expects at most " ++ toString expected ++ ", got " ++ toString got
  | notFinite argument value => argument ++ " is not finite: " ++ value
  | notANumber argument typeName => argument ++ " must be a number, got " ++ typeName
  | notAnArray typeName => "expected an array, got " ++ typeName
  | emptyArray => ""
  | emptyRange low high => "min " ++ toString low ++ " is greater than max " ++ toString high
  | formatNotText => "format must be a string"
  | timestampNotNumber => "timestamp must be a number"
  | timestampOutOfRange value => "timestamp " ++ value ++ " out of range"
  | valuesNotArray => "values must be an array"
  | positionNotInteger => "position must be an integer"
  | constantNotText => "constant name must be a string"
  | constantNotFound name => "'" ++ name ++ "'"
  | templateNotFound name => "'" ++ name ++ "'"
  | loadFailed name reason =>
    match reason with
    | some text => "'" ++ name ++ "': " ++ text
    | none => "'" ++ name ++ "'"
  | circular chain => " -> ".intercalate chain
  | templateNesting limit => "template nesting deeper than " ++ toString limit
  | selfContained block => "block '" ++ block ++ "' contains itself"
  | raised _ _ detail => detail

end Cause

/-- A cause with the place where it arose. -/
structure TemplateError where
  cause : Cause
  line : Option Int := none
  template : Option String := none
  deriving DecidableEq, Repr

namespace TemplateError

/-- The place of an error in parentheses, as far as it is known; an empty name is not shown. -/
def place (template : Option String) (line : Option Int) : String :=
  let names := match template with
    | some name => if name.isEmpty then [] else ["template '" ++ name ++ "'"]
    | none => []
  let lines := match line with
    | some n => ["line " ++ toString n]
    | none => []
  let parts := names ++ lines
  if parts.isEmpty then "" else " (" ++ ", ".intercalate parts ++ ")"

/-- Code, detail and place in one line. -/
def message (e : TemplateError) : String :=
  let detail := e.cause.detail
  e.cause.code.text ++ (if detail.isEmpty then "" else ": " ++ detail) ++ place e.template e.line

/-- The name of a template is attached unless there is one already. -/
def withTemplate (e : TemplateError) (name : String) : TemplateError :=
  match e.template with
  | some _ => e
  | none => { e with template := some name }

theorem template_withTemplate (e : TemplateError) (name : String) :
    (e.withTemplate name).template = some (e.template.getD name) := by
  unfold withTemplate
  cases h : e.template <;> simp [h]

/-- A second name is not attached. -/
theorem withTemplate_withTemplate (e : TemplateError) (name other : String) :
    (e.withTemplate name).withTemplate other = e.withTemplate name := by
  unfold withTemplate
  cases h : e.template <;> simp [h]

@[simp] theorem cause_withTemplate (e : TemplateError) (name : String) :
    (e.withTemplate name).cause = e.cause := by
  unfold withTemplate
  cases e.template <;> rfl

@[simp] theorem line_withTemplate (e : TemplateError) (name : String) :
    (e.withTemplate name).line = e.line := by
  unfold withTemplate
  cases e.template <;> rfl

end TemplateError

/-- How the program can stop without an error about the template. -/
inductive Fault where
  /-- A tag holds a letter or digit beyond ASCII where a name or number would start. -/
  | strayCharacter
  /-- An integer has more digits than are read or written. -/
  | integerTooLong
  /-- A place in an array is given by a digit that is no decimal digit. -/
  | badIndex
  /-- More decimal places are asked for than a number can be written with. -/
  | tooManyPlaces
  /-- The seconds of a moment cannot be counted. -/
  | uncountableMoment
  /-- A power of ten is beyond all bounds. -/
  | exponentOverflow
  /-- A block is used that no template defines. -/
  | missingBlock
  /-- A version of a block is used that no template gives it. -/
  | missingVersion
  /-- The name of an encoding is unknown. -/
  | unknownEncoding
  /-- A file is not text in its encoding. -/
  | undecodable
  /-- A text with halves of characters in it has to be written as bytes. -/
  | unencodable
  /-- The name of a file is longer than such names can be. -/
  | nameTooLong
  /-- A path or the name of an encoding holds a NUL. -/
  | embeddedNul
  /-- A document holds a number that cannot be read. -/
  | unreadableNumber
  /-- Nothing stands where a document has to have a number. -/
  | emptyNumber
  /-- A word in a document is meant as a truth value and is none. -/
  | unknownTruth
  /-- A moment in a document lies outside of the calendar. -/
  | outsideCalendar
  /-- Keys of different kinds cannot be put in order. -/
  | unorderedKeys
  /-- A key of a mapping is a list that holds more than scalars. -/
  | unusableKey
  /-- A sequence has more items than can be counted. -/
  | uncountable
  /-- A text or a sequence does not fit into memory. -/
  | outOfMemory
  deriving DecidableEq, Repr

/-- An error about the template, or a fault of the program. -/
inductive Failure where
  | error (e : TemplateError)
  | fault (f : Fault)
  deriving DecidableEq, Repr

namespace Failure

/-- A failure with a cause and no place. -/
def of (cause : Cause) : Failure :=
  .error ⟨cause, none, none⟩

/-- A failure with a cause on a line. -/
def onLine (cause : Cause) (line : Nat) : Failure :=
  .error ⟨cause, some line, none⟩

def withTemplate (name : String) : Failure → Failure
  | .error e => .error (e.withTemplate name)
  | .fault f => .fault f

end Failure

end Stencil
