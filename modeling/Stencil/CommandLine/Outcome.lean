/-
# What a command line leads to

A request is carried out in files that are given: a template is rendered for a
context, or checked together with all that it leads to, or shown token by
token. Whatever is wrong with the request, its files or its templates is a
complaint of one line; only faults that no complaint covers stop the program.

The context comes from a file or from standard input; bindings on the command
line go over it. The value of a binding is JSON if it can be read so, and text
if not.

Key definitions: `Complaint`, `Outcome`, `readContext`, `readBindings`,
`extendsChain`, `Request.output`, `Request.run`.
-/
import Stencil.CommandLine.Request
import Stencil.Config
import Stencil.Value.JsonReader

namespace Stencil.CommandLine

/-- Why a request cannot be carried out. -/
inductive Complaint where
  | template (e : TemplateError)
  | config (e : Config.Error)
  | contextNotFound (path : String)
  | contextMalformed
  | contextNotObject (typeName : String)
  | bindingWithoutValue (spec : String)
  | bindingWithoutKey (spec : String)
  /-- A fault of a template or a file that is due to a value in it. -/
  | value (f : Fault)

/-- The end of a run. -/
inductive Outcome where
  | ended (e : Ending)
  | success (output : String)
  | failed (c : Complaint)
  | stopped (f : Fault)
  /-- A chain of templates never comes to an end. -/
  | endless

/-- What stops a request. -/
inductive Stop where
  | complaint (c : Complaint)
  | fault (f : Fault)
  | endless

/-- A result, or what stops the request. -/
abbrev Attempt := Except Stop

/-- Work on a request in a session of an engine. -/
abbrev Step := ExceptT Stop (StateM Session)

/-- The faults that are due to a value are reported, the others stop the program. -/
def reportable : Fault → Option String
  | .integerTooLong => some "an integer has too many digits"
  | .badIndex => some "a position in an array is no integer"
  | .tooManyPlaces => some "too many decimal places"
  | .uncountableMoment => some "a moment is out of range"
  | .undecodable => some "a file is not text in its encoding"
  | .unencodable => some "a text has halves of characters in it"
  | .embeddedNul => some "embedded null byte"
  | .unreadableNumber => some "a number cannot be read"
  | _ => none

/-- A complaint in words. -/
def Complaint.message : Complaint → String
  | template e => e.message
  | config e => e.message
  | contextNotFound path => "Context file not found: " ++ path
  | contextMalformed => "Context is not valid JSON"
  | contextNotObject typeName => "Context must be a JSON object, got " ++ typeName
  | bindingWithoutValue spec => "Invalid variable '" ++ spec ++ "'. Expected 'key=value'"
  | bindingWithoutKey spec => "Invalid variable '" ++ spec ++ "': empty key"
  | value f => (reportable f).getD ""

/-- The line that a complaint is reported in, without blanks at its end. -/
def Complaint.report (c : Complaint) : String :=
  String.ofList (Text.trimEnd Text.isBlank c.message.toList)

def complain {α : Type} (c : Complaint) : Attempt α := .error (.complaint c)

def ofFault {α : Type} (f : Fault) : Attempt α :=
  .error (if (reportable f).isSome then .complaint (.value f) else .fault f)

def ofFailure {α : Type} : Except Failure α → Attempt α
  | .ok a => .ok a
  | .error (.error e) => complain (.template e)
  | .error (.fault f) => ofFault f

def ofConfig {α : Type} : Except Config.Refusal α → Attempt α
  | .ok a => .ok a
  | .error (.error e) => complain (.config e)
  | .error (.fault f) => ofFault f

/-- The configuration of a request: that of a file, or the default one; directories on the command
line go first, and if there are none at all, templates come from where the run starts. -/
def configOf (t : FileTree) (r : Request) : Attempt Config := do
  let base ← match r.config with
    | some file => if file.isEmpty then pure {} else ofConfig (Config.load t file)
    | none => pure {}
  let config := base.prepend r.templateDirs
  pure (if config.directories.searchPaths.isEmpty then config.prepend ["."] else config)

/-- The fields of a context in JSON; blank text has none. -/
def contextOf (source : String) : Attempt (Table Value) :=
  if Text.allBlank source.toList then pure []
  else
    match Value.ofJson source with
    | .ok (.object fields) => pure fields
    | .ok v => complain (.contextNotObject v.typeName)
    | .error .malformed => complain .contextMalformed
    | .error .tooLong => ofFault .integerTooLong

/-- The context that a request names: none, standard input, or a file. -/
def readContext (t : FileTree) (input : String) : Option String → Attempt (Table Value)
  | none => pure []
  | some "" => pure []
  | some "-" => contextOf input
  | some file =>
    let path := Path.ofText file
    if file.contains '\x00' then complain (.contextNotFound path.text)
    else
      match t.follow path with
      | .file bytes =>
        match readText? .utf8 bytes with
        | some source => contextOf source
        | none => ofFault .undecodable
      | .tooLong => ofFault .nameTooLong
      | _ => complain (.contextNotFound path.text)

/-- A name and its value on the command line. -/
def readBinding (spec : String) : Attempt (String × Value) :=
  match Text.cut '=' spec.toList with
  | (_, none) => complain (.bindingWithoutValue spec)
  | (key, some raw) =>
    let name := Text.trim key
    let text := String.ofList raw
    if name.isEmpty then complain (.bindingWithoutKey spec)
    else
      match Value.ofJson text with
      | .ok v => pure (String.ofList name, v)
      | .error .malformed => pure (String.ofList name, .str text)
      | .error .tooLong => ofFault .integerTooLong

/-- The names and values on the command line, in order. -/
def readBindings : List String → Attempt (List (String × Value))
  | [] => pure []
  | spec :: specs => do
    let b ← readBinding spec
    let bs ← readBindings specs
    pure (b :: bs)

/-- An attempt as a step. -/
def attempt {α : Type} (a : Attempt α) : Step α := fun s => (a, s)

/-- Work of an engine as a step. -/
def work {α : Type} (w : Work Session α) : Step α := fun s =>
  match w s with
  | (r, s) => (ofFailure r, s)

/-- The templates that a template extends, nearest first; more than `room` of them repeat. -/
def extendsChain (engine : Engine) : Nat → Template → Step (List Template)
  | room, t =>
    match t.parent with
    | none => pure []
    | some name =>
      match room with
      | 0 => attempt (.error .endless)
      | room + 1 => do
        let parent ← work (engine.load name)
        let more ← extendsChain engine room parent
        pure (parent :: more)

/-- The source of a template, by a name that the loader is asked for. -/
def source (engine : Engine) (name : String) : Step String := fun s =>
  (ofFailure (engine.loader name), { s with asked := name :: s.asked })

/-- What a template leads to: the templates it extends, and the names of all their blocks and
macros. -/
structure Summary where
  template : String
  chain : List String
  blocks : List String
  macros : List String

/-- A template is checked with all that it leads to. Each template of the chain is the text of
another file unless one repeats. -/
def check (engine : Engine) (fileCount : Nat) (name : String) : Step Summary := do
  let template ← work (engine.load name)
  let chain ← extendsChain engine (fileCount + 1) template
  let _ ← work (engine.merge name)
  let all := template :: chain
  pure {
    template := name
    chain := chain.map Template.name
    blocks := sortedSet (all.flatMap fun t => Table.names t.blocks)
    macros := sortedSet (all.flatMap fun t => Table.names t.macros) }

def strings (names : List String) : Value :=
  .list (names.map .str)

def Summary.value (s : Summary) : Value :=
  .object [("template", .str s.template), ("extends", strings s.chain),
    ("blocks", strings s.blocks), ("macros", strings s.macros)]

def tokenValue (t : Token) : Value :=
  .object [("type", .str t.kind.label), ("value", .str t.value), ("line", .int t.line)]

/-- JSON on lines of its own. -/
def page (v : Value) : String :=
  v.json (.lines 2) ++ "\n"

/-- The output of a request. -/
def Request.output (w : Surroundings) (t : FileTree) (input : String) (r : Request) :
    Step String := do
  let config ← attempt (configOf t r)
  let engine := config.engine w t
  match r.command with
  | .render =>
    let context ← attempt (readContext t input r.context)
    let bindings ← attempt (readBindings r.bindings)
    work (engine.render r.template (.object (Table.putAll context bindings)))
  | .check =>
    let summary ← check engine t.files.length r.template
    pure (page summary.value)
  | .tokens =>
    let text ← source engine r.template
    let tokens ← attempt (ofFailure (tokenize text))
    pure (page (.list (tokens.map tokenValue)))

/-- What a request leads to, and the templates that were asked for on the way. -/
def Request.run (w : Surroundings) (t : FileTree) (input : String) (r : Request) :
    Outcome × List String :=
  match r.output w t input .fresh with
  | (.ok text, s) => (.success text, s.asked)
  | (.error (.complaint c), s) => (.failed c, s.asked)
  | (.error (.fault f), s) => (.stopped f, s.asked)
  | (.error .endless, s) => (.endless, s.asked)

/-- What a command line leads to. -/
def run (w : Surroundings) (t : FileTree) (input : String) (args : List String) : Outcome :=
  match Request.parse args with
  | .error e => .ended e
  | .ok r => (r.run w t input).1

namespace Ending

/-- The name and the number of the program. -/
def versionText : String := "twiglet 0.1.0\n"

def helpText : String :=
  "usage: twiglet [-h] [-v] \x7brender,check,tokens\x7d [-t DIR] [--config FILE] name\n"

/-- What is printed at an early end. -/
def output : Ending → String
  | help => helpText
  | version => versionText
  | misuse => ""

def code : Ending → Nat
  | misuse => 2
  | _ => 0

end Ending

end Stencil.CommandLine
