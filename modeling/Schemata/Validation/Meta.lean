/-
**What a validator knows beside its value.**

* `Segment` is a step from a container to one of its members, and a path is a list of steps;
* `Meta` holds the path to the value, the values that fields have published, and the check that
  failed last with its parameters.
-/

import Schemata.Dictionary
import Schemata.Json.Value

namespace Schemata

/-- A step into an object or an array. -/
inductive Segment where
  | key (name : String)
  | index (position : Nat)
deriving DecidableEq, Repr

namespace Segment

/-- The text of a step. -/
def text : Segment → String
  | key name => name
  | index position => toString position

/-- A step as JSON. -/
def toJson : Segment → Json
  | key name => .string name
  | index position => .ofNat position

/-- The step that a JSON value stands for. -/
def ofJson? : Json → Option Segment
  | .string name => some (key name)
  | json => json.natural?.map index

end Segment

/-- What a validator knows: where its value lies, what has been published, and which check failed
last. -/
structure Meta where
  path : List Segment
  published : Dictionary Json
  validator : Option String
  params : List Json

namespace Meta

/-- Nothing is known yet. -/
def empty : Meta := ⟨[], [], none, []⟩

instance : Inhabited Meta := ⟨empty⟩

/-- Step into a container. -/
def enter (segment : Segment) (known : Meta) : Meta :=
  { known with path := known.path ++ [segment] }

/-- Step back. -/
def leave (known : Meta) : Meta :=
  { known with path := known.path.dropLast }

/-- Publish a value under a name. -/
def publish (name : String) (value : Json) (known : Meta) : Meta :=
  { known with published := known.published.insert name value }

/-- The value published under a name. -/
def published? (name : String) (known : Meta) : Option Json :=
  Dictionary.find? name known.published

/-- Say which check has failed. -/
def describe (name : String) (params : List Json) (known : Meta) : Meta :=
  { known with validator := some name, params }

/-- **The path with points between its steps.** -/
def pathText (known : Meta) : String :=
  ".".intercalate (known.path.map Segment.text)

/-- Stepping back undoes a step. -/
@[simp] theorem leave_enter (segment : Segment) (known : Meta) :
    (known.enter segment).leave = known := by
  simp [leave, enter]

/-- What is published under a name is found there, and nothing else changes. -/
theorem published?_publish (name other : String) (value : Json) (known : Meta) :
    (known.publish name value).published? other =
      if other = name then some value else known.published? other :=
  Dictionary.find?_insert name other value known.published

/-- **Metadata as JSON.** What has not been described is left out. -/
def toJson (known : Meta) : Json :=
  .object ([("deps", Json.object known.published)] ++
    (if known.params.isEmpty then [] else [("params", Json.array known.params)]) ++
    [("path", Json.array (known.path.map Segment.toJson))] ++
    (match known.validator with
      | none => []
      | some name => [("validator", Json.string name)]))

/-- The metadata that a JSON value stands for; the path and what is published must be given. -/
def ofJson? (json : Json) : Option Meta := do
  let path ← (← (← json.member? "path").items?).mapM Segment.ofJson?
  let published ← match json.member? "deps" with
    | some (.object members) => some members
    | _ => none
  let validator ← match json.member? "validator" with
    | none => some none
    | some .null => some none
    | some name => name.text?.map some
  let params ← match json.member? "params" with
    | none => some []
    | some params => params.items?
  some ⟨path, published, validator, params⟩

end Meta

end Schemata
