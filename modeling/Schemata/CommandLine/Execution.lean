/-
**Carrying out requests.**

Settings are loaded first, then the schema is read and compiled, then the errors, the injections and
the input are read. The first of these that fails ends the run.

* `Request.execute` carries out a request in a world;
* `execute` reads arguments and carries them out.
-/

import Schemata.CommandLine.Arguments
import Schemata.Compilation.Compile
import Schemata.Json.Reader
import Schemata.Json.Writer
import Schemata.Language.Codec
import Schemata.Settings.Load
import Schemata.Template.Evaluation

namespace Schemata.CommandLine

/-- How a run of the command ends: with its output and whether everything is in order, with an
error, or with a refusal of its arguments. -/
inductive Ending where
  | finished (output : String) (passed : Bool)
  | failed (message : String)
  | refused (refusal : Refusal)
deriving DecidableEq, Repr

/-- The exit status of an ending. -/
def Ending.status : Ending → Nat
  | finished _ passed => if passed then 0 else 1
  | failed _ => 1
  | refused .help => 0
  | refused _ => 2

variable {m : Type → Type} [Monad m]

/-- A step of a run, which may fail with a message. -/
abbrev Task (m : Type → Type) := ExceptT String m

/-- Read a text, and say what it is for if that fails. -/
def readText (purpose : String) (read : m (Except ReadFailure String)) : Task m String :=
  ExceptT.mk do
    pure ((← read).mapError fun failure => "Failed to read " ++ purpose ++ ": " ++ failure.message)

/-- Go on with a result, and word its error. -/
def orFail {ε α : Type} (message : ε → String) (result : Except ε α) : Task m α :=
  ExceptT.mk (pure (result.mapError message))

/-! ### Inputs -/

/-- The text of a schema. -/
def Source.read (world : World m) : Source → Task m String
  | inline text => pure text
  | file path => readText ("schema file " ++ path) (world.file path)

/-- What a source is called in messages. -/
def Source.description : Source → String
  | inline _ => "inline schema"
  | file path => "schema file " ++ path

/-- The template of a source. -/
def Source.template (world : World m) (source : Source) : Task m Template := do
  let text ← source.read world
  orFail (fun error => "Failed to compile " ++ source.description ++ ": " ++ error.message)
    (Template.ofText text)

/-- The items of a file that holds a JSON array. -/
def readArray (world : World m) (what path : String) : Task m (List Json) := do
  let name := what ++ " file " ++ path
  let text ← readText name (world.file path)
  match (Json.parse text).bind Json.items? with
  | some items => pure items
  | none => throw ("The " ++ name ++ " must hold a JSON array")

/-- The values that a file supplies, if there is one. -/
def readInjected (world : World m) (what : String) : Option String → Task m (List Injected)
  | none => pure []
  | some path => do
    let items ← readArray world what path
    pure (items.map .plain)

/-- The value to validate. A hyphen stands for the input of the program. -/
def readInput (world : World m) (path : String) : Task m Json := do
  let text ← if path = "-" then readText "input from stdin" world.input
    else readText ("input file " ++ path) (world.file path)
  match Json.parse text with
  | some value => pure value
  | none => throw ("Input " ++ path ++ " is not valid JSON")

/-! ### Commands -/

/-- The text of a value and a line break. -/
def render (settings : Settings) (value : Json) : String :=
  (if settings.pretty then value.pretty else value.compact) ++ "\n"

/-- **Carry out a command.** -/
def Command.execute (world : World m) (settings : Settings) : Command → Task m Ending
  | tokens source => do
    let text ← source.read world
    let lexemes ← orFail ParseError.message (Lexeme.tokenize text)
    pure (.finished (String.join (lexemes.map fun lexeme => lexeme.listing ++ "\n")) true)
  | ast source => do
    let text ← source.read world
    let forest ← orFail ParseError.message (Grammar.parse text)
    pure (.finished (render settings (.array (Param.listToJson forest))) true)
  | check source => do
    let template ← source.template world
    pure (.finished
      ("✓ Schema compiled (" ++ toString template.schemaCount ++ " named schema(s))\n") true)
  | validate source input errors injections => do
    let template ← source.template world
    let errors ← readInjected world "errors" (errors.orElse fun _ => settings.errorsPath)
    let injections ←
      readInjected world "injections" (injections.orElse fun _ => settings.injectionsPath)
    let value ← readInput world input
    match Report.of (template.validate ⟨injections, errors⟩) value with
    | some report =>
      pure (.finished (render settings report.toJson) (report.passed template.collectsErrors))
    | none => throw "The schemas call one another without end"
  | config => pure (.finished settings.toToml true)

/-- **Carry out a request**, its settings being loaded first. -/
def Request.execute (world : World m) (request : Request) : m Ending := do
  let task : Task m Ending := do
    let settings ← ExceptT.mk do
      pure ((← Settings.load world.file (some world.environment) request.config).mapError
        Settings.Failure.message)
    request.command.execute world settings
  match ← task.run with
  | .ok ending => pure ending
  | .error message => pure (.failed message)

/-- **Read arguments and carry them out.** -/
def execute (world : World m) (arguments : List String) : m Ending :=
  match Request.ofArguments arguments with
  | .ok request => request.execute world
  | .error refusal => pure (.refused refusal)

end Schemata.CommandLine
