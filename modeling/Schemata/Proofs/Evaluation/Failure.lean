/-
**Which check of a step fails.**

A step fails by itself if its own check does not hold, or if it takes a container and is given
another value. Whatever fails inside a container or a named schema is not a check of the step.

* `Step.failure?` is the check that fails at a step, with its parameters;
* `Step.validate_of_failure?`: such a step fails with its tag, and describes the check;
* `Step.exists_passed`: a check that does not fail has an answer, reports nothing and changes
  nothing.
-/

import Schemata.Proofs.Compilation.Inversion
import Schemata.Proofs.Validation.Groups
import Schemata.Template.Evaluation

namespace Schemata

/-- **The check that fails at a step**, by its name and parameters. Whatever fails inside a
container or a named schema is not a check of the step. -/
def Step.failure? (bindings : Bindings) : Step → Json → Meta → Option (String × List Json)
  | .primitive check _, value, _ =>
    if (check.check value).isSome then none else some (check.name, [])
  | .equality expected bound _, value, known =>
    let other := bound.resolve bindings value known
    if Check.equals value other == expected then none
    else some (if expected then "equal" else "notEqual", [other])
  | .membership bounds _, value, known =>
    let candidates := bounds.map fun bound => bound.resolve bindings value known
    if Check.isOneOf value candidates then none else some ("oneOf", candidates)
  | .matching text pattern _, value, _ =>
    if Check.matchesText pattern value then none else some ("regex", [.string text])
  | .comparison relation bound _, value, known =>
    let other := bound.resolve bindings value known
    if Check.compares relation value other then none
    else some ("compare", [.string relation.symbol, other])
  | .lengthComparison relation bound _, value, known =>
    let other := bound.resolve bindings value known
    if Check.comparesLength relation value other then none
    else some ("length", [.string relation.symbol, other])
  | .object _ _, .object _, _ => none
  | .object _ _, _, _ => some ("object", [])
  | .array _ _, .array _, _ => none
  | .array _ _, _, _ => some ("array", [])
  | .call _, _, _ => none
  | .define _ _, _, _ => none

/-- The tag of a step. -/
def Step.tag? : Step → Option ErrorTag
  | .primitive _ tag | .equality _ _ tag | .membership _ tag | .matching _ _ tag
  | .comparison _ _ tag | .lengthComparison _ _ tag | .object _ tag | .array _ tag => tag
  | .call _ | .define _ _ => none

section Failure

variable {bindings : Bindings} {tag : Option ErrorTag} {step : Step} {value : Json} {known : Meta}

/-- A condition that does not hold fails. -/
theorem ErrorTag.require_of_failure? {holds : Bool} {check : String × List Json} {name : String}
    {params : List Json} (fails : (if holds then none else some check) = some (name, params)) :
    require bindings tag check.1 check.2 holds value = fail bindings tag name params := by
  cases holds with
  | true => cases fails
  | false =>
      cases fails
      rfl

/-- A condition that holds passes the value. -/
theorem ErrorTag.require_of_holds {holds : Bool} {check : String × List Json}
    (passes : (if holds then none else some check) = none) :
    require bindings tag check.1 check.2 holds value = pure (some value) := by
  cases holds with
  | true => rfl
  | false => cases passes

/-- **A step whose own check fails describes it**, and reports with its tag. -/
theorem Step.validate_of_failure? {name : String} {params : List Json}
    (fails : step.failure? bindings value known = some (name, params)) (call : Nat → Validator) :
    step.validate bindings call value known =
      ErrorTag.fail bindings step.tag? name params known := by
  cases step with
  | primitive check tag =>
      rw [failure?] at fails
      change check.validate bindings tag value known = _
      unfold Primitive.validate
      cases checks : check.check value with
      | some result =>
          rw [checks] at fails
          cases fails
      | none =>
          rw [checks] at fails
          cases fails
          rfl
  | equality | membership | comparison | lengthComparison =>
      rw [validate]
      exact (Run.known_bind_apply _ _).trans (congrFun (ErrorTag.require_of_failure? fails) known)
  | matching => exact congrFun (ErrorTag.require_of_failure? fails) known
  | object | array =>
      cases value <;> cases fails <;> rfl
  | call | define => cases fails

/-- **A check that does not fail has an answer**, reports nothing and leaves the metadata as they
are. -/
theorem Step.exists_passed (check : step.isCheck) (bindings : Bindings) (call : Nat → Validator)
    (value : Json) : ∃ result, ∀ known, step.failure? bindings value known = none →
      step.validate bindings call value known = some ⟨some result, [], known⟩ := by
  cases step with
  | primitive primitive tag =>
      cases checks : primitive.check value with
      | some result =>
          refine ⟨result, fun known _ => ?_⟩
          change primitive.validate bindings tag value known = _
          rw [Primitive.validate, checks]
          rfl
      | none =>
          refine ⟨value, fun known passes => ?_⟩
          rw [failure?, checks] at passes
          cases passes
  | equality | membership | comparison | lengthComparison =>
      refine ⟨value, fun known passes => ?_⟩
      rw [validate]
      exact (Run.known_bind_apply _ _).trans (congrFun (ErrorTag.require_of_holds passes) known)
  | matching => exact ⟨value, fun known passes => congrFun (ErrorTag.require_of_holds passes) known⟩
  | object | array | call | define => cases check

end Failure

end Schemata
