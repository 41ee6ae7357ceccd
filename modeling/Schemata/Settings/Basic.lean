/-
**Settings of the command.**

* `Settings.ofTree?` takes the settings out of a tree. A section may be a table, or an array that
  gives its settings in their order. Scalars are brought to the type of a setting where that is
  possible.
* `Settings.toToml` writes the settings down.
-/

import Schemata.Json.Value
import Schemata.Settings.Layer
import Schemata.Toml.Quote

namespace Schemata

/-- The settings: how much is logged, where errors and injections come from unless that is said, and
whether output is spread over lines. -/
structure Settings where
  level : String
  errorsPath : Option String
  injectionsPath : Option String
  pretty : Bool
deriving DecidableEq, Repr

namespace Settings

open Toml (Value)

/-- The settings without any source. -/
def default : Settings := ⟨"warn", none, none, true⟩

/-! ### Scalars -/

/-- Floats are written positionally, however large or small they are. -/
def floatLayout : Decimal.Layout := ⟨-400, 400, false⟩

/-- The text of a float. -/
def floatText : Binary64.Datum → String
  | .finite x => x.render floatLayout
  | .infinite negative => if negative then "-inf" else "inf"
  | .nan => "NaN"

/-- **The text of a scalar.** -/
def text? : Value → Option String
  | .string text => some text
  | .moment text => some text
  | .bool flag => some (if flag then "true" else "false")
  | .integer value => some (toString value)
  | .float datum => some (floatText datum)
  | _ => none

/-- The flag that a word stands for. -/
def flagOfWord? (word : String) : Option Bool :=
  if word ∈ ["true", "on", "yes", "1"] then some true
  else if word ∈ ["false", "off", "no", "0"] then some false
  else none

/-- **The flag of a scalar.** A number other than zero is true. -/
def flag? : Value → Option Bool
  | .bool flag => some flag
  | .integer value => some (value ≠ 0)
  | .float datum => some (datum.compare? (.ofInt 0) ≠ some .eq)
  | .string text => flagOfWord? text.toLower
  | .moment text => flagOfWord? text.toLower
  | _ => none

/-! ### Sections -/

/-- What a section holds at the place of a setting: a tree, or a gap of an array. The setting is
under its key in a table, or at its position in an array. A section that is neither has no settings
at all. -/
def member? (tree : Layer.Tree) (name key : String) (position : Nat) :
    Option (Option (Option Layer.Tree)) :=
  match Layer.find? name (Layer.Tree.entries (some tree)) with
  | none => some none
  | some (.table entries) => some ((Layer.find? key entries).map some)
  | some (.array items) => some items[position]?
  | some (.leaf _) => none

/-- A setting that has a value without any source. A gap is not a value. -/
def setting? {α : Type} (read : Value → Option α) (fallback : α) :
    Option (Option Layer.Tree) → Option α
  | none => some fallback
  | some (some (.leaf value)) => read value
  | some _ => none

/-- A setting that may be absent, as it is at a gap. -/
def optional? {α : Type} (read : Value → Option α) : Option (Option Layer.Tree) → Option (Option α)
  | none | some none => some none
  | held => setting? (fun value => (read value).map some) none held

/-- **The settings in a tree.** -/
def ofTree? (tree : Layer.Tree) : Option Settings := do
  let level ← setting? text? default.level (← member? tree "logging" "level" 0)
  let errorsPath ← optional? text? (← member? tree "validation" "errors_path" 0)
  let injectionsPath ← optional? text? (← member? tree "validation" "injections_path" 1)
  let pretty ← setting? flag? default.pretty (← member? tree "validation" "pretty" 2)
  some ⟨level, errorsPath, injectionsPath, pretty⟩

/-- The tree of the settings without any source. -/
def defaultTree : Layer.Tree :=
  .table [("logging", .table [("level", .leaf (.string default.level))]),
    ("validation", .table [("pretty", .leaf (.bool default.pretty))])]

/-! ### Writing -/

/-- The text of a flag. -/
def flagText (flag : Bool) : String :=
  if flag then "true" else "false"

/-- A line for a setting, if it is present. -/
def pathLine (key : String) : Option String → String
  | none => ""
  | some path => key ++ " = " ++ Toml.quote path ++ "\n"

/-- **The settings as TOML.** -/
def toToml (settings : Settings) : String :=
  "[logging]\nlevel = " ++ Toml.quote settings.level ++ "\n\n[validation]\n" ++
    pathLine "errors_path" settings.errorsPath ++
    pathLine "injections_path" settings.injectionsPath ++
    "pretty = " ++ flagText settings.pretty ++ "\n"

/-- The settings as JSON. -/
def toJson (settings : Settings) : Json :=
  let path (name : String) : Option String → List (String × Json)
    | none => []
    | some path => [(name, .string path)]
  .object [("logging", .object [("level", .string settings.level)]),
    ("validation", .object (path "errors_path" settings.errorsPath ++
      path "injections_path" settings.injectionsPath ++ [("pretty", Json.bool settings.pretty)]))]

end Settings

end Schemata
