/-
**Loading settings.**

Settings are built in layers: what holds without any source, then a file, then variables of the
environment. The file must exist if it is named by the caller or by a variable; otherwise a file in
the working directory is taken if there is one.

* `Variables.layer` lists the settings that variables hold;
* `Settings.load` builds all layers.
-/

import Schemata.Numeral.Reading
import Schemata.Settings.Basic
import Schemata.Settings.VariableFile
import Schemata.Toml.Reader

namespace Schemata

open Toml (Value)

/-! ### Variables -/

/-- What the name of a variable starts with if it holds a setting. -/
def Variables.settingMark : List Char := ['u', 'v', 'o', '_', '_']

/-- Points in the place of double underscores. -/
def Variables.withPoints : List Char → List Char
  | '_' :: '_' :: rest => '.' :: withPoints rest
  | c :: rest => c :: withPoints rest
  | [] => []

/-- **The value of a variable**: a flag, an integer, a float or a text. -/
def Variables.value (text : String) : Value :=
  if text.toLower = "true" then .bool true
  else if text.toLower = "false" then .bool false
  else match Numeral.integer? text with
    | some value => .integer value
    | none => match Numeral.real? text with
      | some datum => .float datum
      | none => .string text

/-- The setting that a variable holds. -/
def Variables.setting? (entry : String × String) : Option (String × Value) :=
  let name := entry.1.toLower.toList
  if settingMark.isPrefixOf name then
    some (String.ofList (withPoints (name.drop settingMark.length)), value entry.2)
  else none

/-- **The settings that variables hold.** -/
def Variables.layer (environment : Variables) : List (String × Value) :=
  environment.filterMap setting?

namespace Settings

/-! ### Files -/

/-- The file of variables in the working directory. -/
def variableFile : String := ".env"

/-- The variable that names the file of settings. -/
def pathVariable : String := "UVO_CONFIG_PATH"

/-- The file of settings in the working directory. -/
def defaultFile : String := "uvo.toml"

/-- Settings cannot be loaded; a file that was asked for is named. -/
structure Failure where
  path : Option String
deriving DecidableEq, Repr

/-- The wording of a failure. -/
def Failure.message (failure : Failure) : String :=
  match failure.path with
  | some path => "Failed to load configuration from " ++ path
  | none => "Failed to load configuration"

variable {m : Type → Type} [Monad m]

/-- Whether a failure means that there is no such file. -/
def isAbsence (failure : ReadFailure) : Bool :=
  failure ≠ .forbidden && failure ≠ .notText

/-- A file, or the one whose name ends in `.toml` besides. -/
def readFile (file : String → m (Except ReadFailure String)) (path : String) :
    m (Except ReadFailure String) := do
  match ← file path with
  | .ok text => pure (.ok text)
  | .error failure =>
    if isAbsence failure && !path.isEmpty then file (path ++ ".toml") else pure (.error failure)

/-- The layer of a file. A file that does not exist is an empty layer unless it is required. -/
def fileLayer (file : String → m (Except ReadFailure String)) (path : String) (required : Bool) :
    m (Option (List (String × Value))) := do
  match ← readFile file path with
  | .ok text => pure (Toml.parse text)
  | .error failure => pure (if isAbsence failure && !required then some [] else none)

/-- **Load the settings.** Without an environment no variables count. -/
def load (file : String → m (Except ReadFailure String)) (environment : Option Variables)
    (path : Option String) : m (Except Failure Settings) := do
  let known ← match environment with
    | none => pure none
    | some known => do
      match ← file variableFile with
      | .ok text => pure (some (VariableFile.load text known))
      | .error _ => pure (some known)
  let explicit := path.orElse fun _ => known.bind fun known => known.find? pathVariable
  let layer ← fileLayer file (explicit.getD defaultFile) explicit.isSome
  let settings := layer.bind fun entries =>
    ofTree? (Layer.putAll ((known.map Variables.layer).getD []) (Layer.putAll entries defaultTree))
  pure (match settings with
    | some settings => .ok settings
    | none => .error ⟨explicit⟩)

end Settings

end Schemata
