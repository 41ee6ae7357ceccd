/-
**Validators and how they combine.**

A validator takes a value and answers it, possibly changed, or nothing if it fails. What is wrong is
reported on the way.

* `consecutive` hands the value from each validator to the next, `parallel` gives all of them the
  same value, and `firstOf` takes the first that does not fail and keeps the reports of the others
  back;
* `publishing`, `withPublished` and `defaulting` pass values through the metadata and around
  validators;
* `collecting` turns the reports of a validator into a part of its answer, and `apart` gives it
  metadata of its own.
-/

import Schemata.Check
import Schemata.Validation.Injected
import Schemata.Validation.Run

namespace Schemata

/-- A validator. -/
abbrev Validator := Json → Run (Option Json)

namespace Validator

/-- Pass every value. -/
def accept : Validator := fun value => pure (some value)

/-- Fail, and report a payload if there is one. -/
def reject (payload : Option Json) : Run (Option Json) := do
  if let some payload := payload then Run.report payload
  pure none

/-- Fail a check that is described by its name and its parameters. -/
def fail (name : String) (params : List Json) (payload : Meta → Option Json) :
    Run (Option Json) := do
  Run.update (Meta.describe name params)
  let known ← Run.known
  reject (payload known)

/-- **Go on with what a validator answers**, unless it fails. -/
def andThen (first second : Validator) : Validator := fun value => do
  match ← first value with
  | some value => second value
  | none => pure none

/-! ### Groups -/

/-- **Each validator on the answer of the one before**, up to the first failure. -/
def consecutive : List Validator → Validator
  | [] => accept
  | first :: others => andThen first (consecutive others)

/-- Run validators on one value; `output` is the answer so far, and stays once it is a failure. -/
def alongside (value : Json) : (output : Option Json) → List Validator → Run (Option Json)
  | output, [] => pure output
  | output, next :: others => do
    let result ← next value
    alongside value (if output.isSome then result else none) others

/-- **All validators on the same value.** The answer is that of the last one, unless one fails. -/
def parallel (validators : List Validator) : Validator := fun value =>
  alongside value (some value) validators

/-- Run candidates up to the first that does not fail; `held` holds the reports of those that
did. -/
def tryEach (value : Json) : (held : List Event) → List Validator → Run (Option Json)
  | held, [] => do
    Run.deliver held
    pure none
  | held, candidate :: others => do
    let (result, events) ← Run.hold (candidate value)
    match result with
    | some value => pure (some value)
    | none => tryEach value (held ++ events) others

/-- **The first candidate that does not fail.** What the candidates report is dropped, unless all of
them fail. No candidates accept every value. -/
def firstOf : List Validator → Validator
  | [] => accept
  | candidates => fun value => tryEach value [] candidates

/-! ### Passing values on -/

/-- Publish the value, or one that is computed from it. -/
def publishing (name : String) (external : Option Injected) : Validator := fun value => do
  let known ← Run.known
  let published := match external with
    | some external => external.resolve value known
    | none => value
  Run.update (Meta.publish name published)
  pure (some value)

/-- Validators that depend on what is published under a name. -/
def withPublished (name : String) (build : Option Json → List Validator) : Validator :=
  fun value => do
    let known ← Run.known
    consecutive (build (known.published? name)) value

/-- Replace an empty value, and validate any other. -/
def defaulting (default : Injected) (validators : List Validator) : Validator := fun value => do
  if Check.isEmpty value then
    let known ← Run.known
    pure (some (default.resolve .null known))
  else consecutive validators value

/-! ### Surroundings -/

/-- Run inside a member of a container. -/
def within (segment : Segment) (inner : Validator) : Validator := fun value =>
  Run.within segment (inner value)

/-- Run with metadata of its own. -/
def apart (inner : Validator) : Validator := fun value =>
  Run.apart (inner value)

/-- What is collected from a report: its payload, processed if there is a processor. -/
def processed (processor : Option Injected) (event : Event) : Json :=
  match processor with
  | some processor => processor.resolve event.payload event.known
  | none => event.payload

/-- The answer that holds a result beside the collected errors. -/
def collected (result : Option Json) (errors : List Json) : Json :=
  .object [("errors", if errors.isEmpty then .null else .array errors),
    ("result", result.getD .null)]

/-- **Collect the reports of a run instead of making them.** -/
def collectErrors (processor : Option Injected) (run : Run (Option Json)) : Run Json := do
  let (result, events) ← Run.hold run
  pure (collected result (events.map (processed processor)))

/-- Answer what is collected. The validator never fails. -/
def collecting (processor : Option Injected) (inner : Validator) : Validator := fun value =>
  some <$> collectErrors processor (inner value)

theorem apart_apply (inner : Validator) (value : Json) (known : Meta) :
    inner.apart value known =
      (inner value .empty).map fun done => { done with known } := by
  change (inner value .empty).bind _ = _
  cases inner value .empty <;> rfl

theorem collecting_apply (processor : Option Injected) (inner : Validator) (value : Json)
    (known : Meta) :
    inner.collecting processor value known = (inner value known).map fun done =>
      ⟨some (collected done.result (done.events.map (processed processor))), [], done.known⟩ := by
  change (((inner value known).bind _).bind _).bind _ = _
  cases inner value known <;> rfl

end Validator

end Schemata
