/-
**Properties of all runs of a chain.**

A chain puts its runs together from answers and publications, one after another and inside members.
A property of runs that is kept by all these is a property of the chain, if its checks and the named
schemas that it calls have it.

* `Run.Closed` is such a property;
* `Run.Closed.validateChain`: a chain has it whose checks do, given validators for the handles that
  do;
* `Run.Closed.invokeWithin`: so do the invocations of named schemas, by induction on the budget of
  calls.
-/

import Schemata.Proofs.Compilation.Inversion
import Schemata.Proofs.Evaluation.Budget
import Schemata.Proofs.Template.Everywhere

namespace Schemata

/-- **A property of runs that is kept by all that is done with them.** -/
structure Run.Closed (holds : {α : Type} → Run α → Prop) : Prop where
  pure : ∀ {α : Type} (result : α), holds (Pure.pure result : Run α)
  exhausted : ∀ {α : Type}, holds (Run.exhausted : Run α)
  bind : ∀ {α β : Type} {first : Run α} {next : α → Run β}, holds first →
    (∀ result, holds (next result)) → holds (first >>= next)
  within : ∀ {α : Type} {segment : Segment} {run : Run α}, holds run →
    holds (Run.within segment run)
  publishing : ∀ name value, holds (Validator.publishing name none value)

namespace Run.Closed

variable {holds : {α : Type} → Run α → Prop} (closed : Run.Closed holds)
include closed

/-! ### Fields and items -/

theorem map {α β : Type} {change : α → β} {run : Run α} (runHolds : holds run) :
    holds (change <$> run) := by
  rw [map_eq_pure_bind]
  exact closed.bind runHolds fun result => closed.pure (change result)

theorem andThen {first second : Validator} (firstHolds : ∀ value, holds (first value))
    (secondHolds : ∀ value, holds (second value)) (value : Json) :
    holds (first.andThen second value) :=
  closed.bind (firstHolds value) fun result => match result with
    | some next => secondHolds next
    | none => closed.pure _

theorem publishingIf {chain : Validator} (publishes : Bool) (name : String)
    (chainHolds : ∀ value, holds (chain value)) (value : Json) :
    holds (chain.publishingIf publishes name value) := by
  cases publishes with
  | false => exact chainHolds value
  | true => exact closed.andThen chainHolds (closed.publishing name) value

theorem validateItems {item : Validator} (itemHolds : ∀ value, holds (item value))
    (items : List Json) :
    ∀ position, holds (item.validateItems position items) := by
  induction items with
  | nil => exact fun _ => closed.pure _
  | cons value rest ih =>
      exact fun position => closed.bind (closed.within (itemHolds value)) fun _ =>
        closed.map (ih (position + 1))

/-! ### Chains -/

variable {bindings : Bindings} {call : Nat → Validator} {kind : Step → Prop}

mutual

/-- A step has the property if the checks of its kind and the handles do. -/
theorem validate (fails : ∀ tag name params, holds (ErrorTag.fail bindings tag name params))
    (checks : ∀ step, kind step → step.isCheck → ∀ value, holds (step.validate bindings call value))
    (calls : ∀ handle value, holds (call handle value)) :
    (step : Step) → step.Everywhere kind → (value : Json) →
      holds (step.validate bindings call value)
  | .object fields tag, everywhere, value => by
      cases value with
      | object members =>
          simp only [Step.validate]
          split
          · exact closed.pure _
          · exact closed.map (validateAll fails checks calls fields everywhere.2 members)
      | _ => exact fails _ _ _
  | .array chain tag, everywhere, value => by
      cases value with
      | array items =>
          exact closed.map
            (closed.validateItems (validateChain fails checks calls chain everywhere.2) items 0)
      | _ => exact fails _ _ _
  | .call handle, _, value | .define handle _, _, value => calls handle value
  | .primitive _ _, everywhere, value | .equality _ _ _, everywhere, value
  | .membership _ _, everywhere, value
  | .matching _ _ _, everywhere, value | .comparison _ _ _, everywhere, value
  | .lengthComparison _ _ _, everywhere, value => checks _ everywhere rfl value

/-- **A chain has the property if the checks of its kind and the handles do.** -/
theorem validateChain (fails : ∀ tag name params, holds (ErrorTag.fail bindings tag name params))
    (checks : ∀ step, kind step → step.isCheck → ∀ value, holds (step.validate bindings call value))
    (calls : ∀ handle value, holds (call handle value)) :
    (chain : List Step) → Step.ChainEverywhere kind chain → (value : Json) →
      holds (Step.validateChain bindings call chain value)
  | [], _, _ => closed.pure _
  | step :: rest, everywhere, value =>
      closed.andThen (validate fails checks calls step everywhere.1)
        (validateChain fails checks calls rest everywhere.2) value

theorem validateAll (fails : ∀ tag name params, holds (ErrorTag.fail bindings tag name params))
    (checks : ∀ step, kind step → step.isCheck → ∀ value, holds (step.validate bindings call value))
    (calls : ∀ handle value, holds (call handle value)) :
    (fields : List Field) → Field.AllEverywhere kind fields → (members : Dictionary Json) →
      holds (Field.validateAll bindings call fields members)
  | [], _, _ => closed.pure _
  | .mk name chain publishes :: rest, everywhere, members =>
      closed.bind (closed.within (closed.publishingIf publishes name
        (validateChain fails checks calls chain everywhere.1) _)) fun _ =>
          closed.map (validateAll fails checks calls rest everywhere.2 members)

end

/-- **The invocations of named schemas have the property if the checks in their bodies do.** -/
theorem invokeWithin {bodies : List (List Step)}
    (fails : ∀ tag name params, holds (ErrorTag.fail bindings tag name params))
    (checks : ∀ call step, kind step → step.isCheck → ∀ value,
      holds (step.validate bindings call value))
    (everywhere : ∀ (handle : Nat) (body : List Step), bodies[handle]? = some body →
      Step.ChainEverywhere kind body) (budget : Nat) :
    ∀ handle value, holds (Step.invokeWithin bodies bindings budget handle value) := by
  induction budget with
  | zero => exact fun _ _ => closed.exhausted
  | succ budget ih =>
      intro handle value
      rw [Step.invokeWithin]
      cases found : bodies[handle]? with
      | some body =>
          exact closed.validateChain fails (checks _) ih body (everywhere handle body found) value
      | none => exact closed.pure _

end Run.Closed

end Schemata
