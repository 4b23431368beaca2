/-
# Requests

A command line names a command and the template it is about. Reading it gives a
request, or it ends the program at once: with help, with the version, or
because the command line is not usable. Options take effect from left to right,
so that a request for help counts only if nothing before it is wrong; a word
that is short for several options is wrong wherever it stands, and what is left
over is noticed last.

Key definitions: `Command`, `Request`, `Ending`, `takeOption`, `Request.parse`.
-/
import Stencil.CommandLine.Words

namespace Stencil.CommandLine

inductive Command where
  | render
  | check
  | tokens
  deriving DecidableEq, Repr

namespace Command

def name : Command → String
  | render => "render"
  | check => "check"
  | tokens => "tokens"

/-- The command with a name. -/
def ofName? (s : String) : Option Command :=
  [render, check, tokens].find? fun c => c.name == s

end Command

/-- What the program is asked to do. -/
structure Request where
  command : Command
  template : String
  templateDirs : List String
  config : Option String
  context : Option String
  bindings : List String
  deriving DecidableEq, Repr

/-- Why the program ends before it does anything. -/
inductive Ending where
  | help
  | version
  | misuse
  deriving DecidableEq, Repr

/-- The options before a command. -/
def programOptions : OptionNames :=
  [("-h", .help), ("--help", .help), ("-v", .version), ("--version", .version)]

/-- The options after a command. -/
def commandOptions (c : Command) : OptionNames :=
  [("-h", .help), ("--help", .help), ("-t", .templateDir), ("--template-dir", .templateDir),
    ("--config", .config)] ++
  match c with
  | .render => [("-c", .context), ("--context", .context), ("--var", .binding)]
  | _ => []

/-- An option with its value, if it takes one. -/
abbrev Setting := Opt × Option String

/-- The settings that one word makes, and the words that are left. -/
structure Taken where
  settings : List Setting
  rest : List Word

/-- An option whose value, if it takes one, is the next word. -/
def takeBare (opt : Opt) (rest : List Word) : Except Ending Taken :=
  if opt.takesValue then
    match rest with
    | .argument s :: rest => .ok ⟨[(opt, some s)], rest⟩
    | _ => .error .misuse
  else .ok ⟨[(opt, none)], rest⟩

/-- An option before others. -/
def Taken.after (s : Setting) (t : Taken) : Taken :=
  { t with settings := s :: t.settings }

/-- A short option with a text attached to it. If it takes no value, the text starts with the
letter of another short option; nothing takes effect before the whole word has been read. -/
def takeShort (names : OptionNames) (opt : Opt) (rest : List Word) :
    List Char → Except Ending Taken
  | [] => if opt.takesValue then .ok ⟨[(opt, some "")], rest⟩ else .error .misuse
  | c :: cs =>
    if opt.takesValue then .ok ⟨[(opt, some (String.ofList (c :: cs)))], rest⟩
    else
      match names.lookup (String.ofList ['-', c]) with
      | none => .error .misuse
      | some other =>
        (if cs.isEmpty then takeBare other rest else takeShort names other rest cs).map
          (Taken.after (opt, none))

/-- An option with what may be attached to it. -/
def takeOption (names : OptionNames) (isShort : Bool) (opt : Opt) (attached : Option (List Char))
    (rest : List Word) : Except Ending Taken :=
  match attached with
  | none => takeBare opt rest
  | some text =>
    if isShort then takeShort names opt rest text
    else if opt.takesValue then .ok ⟨[(opt, some (String.ofList text))], rest⟩
    else .error .misuse

/-- What has been read of a command. -/
structure Draft where
  template : Option String := none
  templateDirs : List String := []
  config : Option String := none
  context : Option String := none
  bindings : List String := []
  /-- Whether a word was left over. -/
  stray : Bool := false

namespace Draft

/-- A setting takes effect. -/
def set (d : Draft) : Setting → Except Ending Draft
  | (.help, _) => .error .help
  | (.version, _) => .error .version
  | (.templateDir, v) => .ok { d with templateDirs := d.templateDirs ++ v.toList }
  | (.config, v) => .ok { d with config := v }
  | (.context, v) => .ok { d with context := v }
  | (.binding, v) => .ok { d with bindings := d.bindings ++ v.toList }

def setAll (d : Draft) : List Setting → Except Ending Draft
  | [] => .ok d
  | s :: ss => do (← d.set s).setAll ss

/-- The first argument is the template, any other is left over. -/
def argument (d : Draft) (s : String) : Draft :=
  match d.template with
  | none => { d with template := some s }
  | some _ => { d with stray := true }

/-- The words after two hyphens. The hyphens must stand just before or just after the template. -/
def separated (d : Draft) (afterTemplate : Bool) (rest : List Word) : Draft :=
  let arguments := rest.filterMap fun w => match w with | .argument s => some s | _ => none
  match d.template with
  | some _ => { d with stray := d.stray || !afterTemplate || !arguments.isEmpty }
  | none =>
    if arguments.isEmpty then { d with stray := true } else arguments.foldl argument d

/-- The words of a command; `afterTemplate` says whether the word before was the template. Every
word is read in one step, so as many steps as there are words are enough. -/
def words (names : OptionNames) : Nat → Bool → Draft → List Word → Except Ending Draft
  | _, _, d, [] => .ok d
  | 0, _, d, _ => .ok d
  | n + 1, afterTemplate, d, w :: rest =>
    match w with
    | .argument s => words names n d.template.isNone (d.argument s) rest
    | .separator => .ok (d.separated afterTemplate rest)
    | .unknown => words names n false { d with stray := true } rest
    | .ambiguous => .error .misuse
    | .option isShort opt attached => do
      let taken ← takeOption names isShort opt attached rest
      let d ← d.setAll taken.settings
      words names n false d taken.rest

end Draft

/-- Whether a word among some is short for several options. -/
def anyAmbiguous (ws : List Word) : Bool :=
  ws.any fun w => match w with | .ambiguous => true | _ => false

namespace Request

/-- What follows the name of a command. -/
def ofWords (c : Command) (args : List String) (stray : Bool) : Except Ending Request := do
  let names := commandOptions c
  let ws := Word.readAll names args
  if anyAmbiguous ws then .error .misuse
  else
    let d ← Draft.words names ws.length false {} ws
    match d.template with
    | some template =>
      if d.stray || stray then .error .misuse
      else pure ⟨c, template, d.templateDirs, d.config, d.context, d.bindings⟩
    | none => .error .misuse

/-- The words up to the name of the command, and then the command. -/
def ofProgram (stray : Bool) : List String → Except Ending Request
  | [] => .error .misuse
  | s :: args =>
    if s = "--" then .error .misuse
    else
      match Word.read programOptions s with
      | .argument name =>
        match Command.ofName? name with
        | some c => ofWords c args stray
        | none => .error .misuse
      | .option isShort opt attached => do
        let taken ← takeOption programOptions isShort opt attached []
        let _ ← Draft.setAll {} taken.settings
        ofProgram true args
      | _ => ofProgram true args

/-- The request that a command line makes. -/
def parse (args : List String) : Except Ending Request :=
  if anyAmbiguous (Word.readAll programOptions args) then .error .misuse
  else ofProgram false args

end Request

end Stencil.CommandLine
