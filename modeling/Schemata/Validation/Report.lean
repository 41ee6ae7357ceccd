/-
**Reports: a validation with every failure that it reported.**
-/

import Schemata.Validation.Validator

namespace Schemata

/-- A reported failure: its payload, where it happened, and in which check. -/
structure Failure where
  error : Json
  path : List Segment
  validator : Option String

/-- The answer of a validator beside the failures that it reported. -/
structure Report where
  value : Option Json
  failures : List Failure

namespace Report

/-- **A value was answered and nothing was reported.** -/
def isValid (report : Report) : Bool :=
  report.value.isSome && report.failures.isEmpty

/-- **Whether a validation has passed.** Where failures are collected in the answer, it must hold
none under `errors`. -/
def passed (collects : Bool) (report : Report) : Bool :=
  report.isValid && (!collects ||
    match report.value.bind (Json.member? "errors") with
    | some errors => errors.isNull
    | none => true)

/-- The failure of an event. -/
def failureOf (event : Event) : Failure :=
  ⟨event.payload, event.known.path, event.known.validator⟩

/-- The report of an outcome. -/
def ofOutcome (outcome : Outcome (Option Json)) : Report :=
  ⟨outcome.result, outcome.events.map failureOf⟩

/-- **The report of a validator on a value**, from metadata that hold nothing. -/
def of (validator : Validator) (value : Json) : Option Report :=
  (validator value .empty).map ofOutcome

end Report

/-- A failure as JSON, its members in a fixed order. -/
def Failure.toJson (failure : Failure) : Json :=
  .object ([("error", failure.error), ("path", .array (failure.path.map Segment.toJson))] ++
    (match failure.validator with
      | none => []
      | some name => [("validator", .string name)]))

/-- A report as JSON, its members in a fixed order. -/
def Report.toJson (report : Report) : Json :=
  .object [("value", report.value.getD .null),
    ("failures", .array (report.failures.map Failure.toJson))]

end Schemata
