/-
**Schemas whose handles are other ones.**

The handles of a schema that becomes a part of another one are larger there by a distance, the
number of the schemas that are defined before it.

* `Step.renumber` adds a distance to the handles of a step, and `Step.definitionsOfAll_renumberAll`
  tells what the definitions become;
* `Step.validateChain_renumberAll`: with other handles a chain is evaluated alike, if the validators
  of the handles are the same;
* `Step.validateChain_invoke`: so a chain is evaluated alike as a part of another schema, if its
  named schemas are among those of the other one.
-/

import Schemata.Proofs.Evaluation.Budget
import Schemata.Proofs.Template.Soundness

namespace Schemata

mutual

/-- **A step with larger handles.** -/
def Step.renumber (distance : Nat) : Step → Step
  | .object fields tag => .object (Field.renumberAll distance fields) tag
  | .array chain tag => .array (Step.renumberAll distance chain) tag
  | .call handle => .call (distance + handle)
  | .define handle chain => .define (distance + handle) (Step.renumberAll distance chain)
  | step => step

/-- A chain with larger handles. -/
def Step.renumberAll (distance : Nat) : List Step → List Step
  | [] => []
  | step :: rest => step.renumber distance :: Step.renumberAll distance rest

/-- Fields with larger handles. -/
def Field.renumberAll (distance : Nat) : List Field → List Field
  | [] => []
  | .mk name chain publishes :: rest =>
    .mk name (Step.renumberAll distance chain) publishes :: Field.renumberAll distance rest

end

/-! ### Definitions -/

section Definitions

variable (distance : Nat)

theorem Step.renumberAll_append (first second : List Step) :
    renumberAll distance (first ++ second) = renumberAll distance first ++
      renumberAll distance second := by
  induction first with
  | nil => rfl
  | cons step rest ih => rw [List.cons_append, renumberAll, ih, renumberAll, List.cons_append]

/-- A check has no handles. -/
theorem Step.renumber_of_isCheck {step : Step} (check : step.isCheck) :
    step.renumber distance = step := by
  cases step with
  | object | array | call | define => cases check
  | _ => rfl

/-- A definition with larger handles. -/
def renumberDefinition (definition : Nat × List Step) : Nat × List Step :=
  (distance + definition.1, Step.renumberAll distance definition.2)

mutual

theorem Step.definitions_renumber : (step : Step) →
    (step.renumber distance).definitions = step.definitions.map (renumberDefinition distance)
  | .object fields _ => Field.definitionsOfAll_renumberAll fields
  | .array chain _ => Step.definitionsOfAll_renumberAll chain
  | .define handle chain => congrArg
      ((distance + handle, Step.renumberAll distance chain) :: ·)
      (Step.definitionsOfAll_renumberAll chain)
  | .primitive _ _ | .equality _ _ _ | .membership _ _ | .matching _ _ _ | .comparison _ _ _
  | .lengthComparison _ _ _ | .call _ => rfl

/-- **The definitions inside a chain with larger handles.** -/
theorem Step.definitionsOfAll_renumberAll : (chain : List Step) →
    Step.definitionsOfAll (Step.renumberAll distance chain) =
      (Step.definitionsOfAll chain).map (renumberDefinition distance)
  | [] => rfl
  | step :: rest => by
      rw [Step.renumberAll, Step.definitionsOfAll, Step.definitionsOfAll, List.map_append,
        Step.definitions_renumber step, Step.definitionsOfAll_renumberAll rest]

theorem Field.definitionsOfAll_renumberAll : (fields : List Field) →
    Field.definitionsOfAll (Field.renumberAll distance fields) =
      (Field.definitionsOfAll fields).map (renumberDefinition distance)
  | [] => rfl
  | .mk _ chain _ :: rest => by
      rw [Field.renumberAll, Field.definitionsOfAll, Field.definitionsOfAll, List.map_append,
        Field.definitionsOfAll_renumberAll rest]
      exact congrArg (· ++ _) (Step.definitionsOfAll_renumberAll chain)

end

end Definitions

/-! ### Evaluation -/

section Evaluation

variable {bindings : Bindings} {call renumbered : Nat → Validator} {count distance : Nat}

mutual

theorem Step.validate_renumber
    (alike : ∀ handle < count, renumbered (distance + handle) = call handle) : (step : Step) →
    step.Everywhere (Step.Sound count) →
      (step.renumber distance).validate bindings renumbered = step.validate bindings call
  | .object fields tag, sound => by
      have same := Field.validateAll_renumberAll alike fields sound.2
      have empty : (Field.renumberAll distance fields).isEmpty = fields.isEmpty := by
        rcases fields with _ | ⟨⟨_, _, _⟩, _⟩ <;> rfl
      funext value
      cases value with
      | object members => simp only [Step.renumber, Step.validate, empty, same]
      | _ => rfl
  | .array chain tag, sound => by
      have same := Step.validateChain_renumberAll alike chain sound.2
      funext value
      cases value with
      | array items => simp only [Step.renumber, Step.validate, same]
      | _ => rfl
  | .call handle, sound => alike handle (sound.calls handle rfl)
  | .define handle _, sound => alike handle (sound.1.calls handle rfl)
  | .primitive _ _, _ | .equality _ _ _, _ | .membership _ _, _ | .matching _ _ _, _
  | .comparison _ _ _, _ | .lengthComparison _ _ _, _ => rfl

/-- **A chain with other handles is evaluated alike**, if the validators of the handles are the
same. -/
theorem Step.validateChain_renumberAll
    (alike : ∀ handle < count, renumbered (distance + handle) = call handle) : (chain : List Step) →
    Step.ChainEverywhere (Step.Sound count) chain →
      Step.validateChain bindings renumbered (Step.renumberAll distance chain) =
        Step.validateChain bindings call chain
  | [], _ => rfl
  | step :: rest, sound => by
      rw [Step.renumberAll, Step.validateChain, Step.validateChain,
        Step.validate_renumber alike step sound.1,
        Step.validateChain_renumberAll alike rest sound.2]

theorem Field.validateAll_renumberAll
    (alike : ∀ handle < count, renumbered (distance + handle) = call handle) :
    (fields : List Field) → Field.AllEverywhere (Step.Sound count) fields →
      Field.validateAll bindings renumbered (Field.renumberAll distance fields) =
        Field.validateAll bindings call fields
  | [], _ => rfl
  | .mk name chain publishes :: rest, sound => by
      funext members
      simp only [Field.renumberAll, Field.validateAll, Field.validate,
        Step.validateChain_renumberAll alike chain sound.1,
        Field.validateAll_renumberAll alike rest sound.2]

end

end Evaluation

/-! ### Parts of a schema -/

/-- **The bodies of a schema hold those of a part of it**, behind some others. -/
def Step.HoldsBodies (bodies : List (List Step)) (distance : Nat)
    (part : List (List Step)) : Prop :=
  ∀ handle body, part[handle]? = some body →
    bodies[distance + handle]? = some (Step.renumberAll distance body)

section Parts

variable {bodies part : List (List Step)} {bindings : Bindings} {distance : Nat}

/-- **The named schemas of a part are invoked alike.** -/
theorem Step.invokeWithin_eq (holds : HoldsBodies bodies distance part)
    (sound : ∀ (handle : Nat) body, part[handle]? = some body →
      ChainEverywhere (Sound part.length) body)
    (budget : Nat) : ∀ handle < part.length,
    invokeWithin bodies bindings budget (distance + handle) =
      invokeWithin part bindings budget handle := by
  induction budget with
  | zero => exact fun _ _ => rfl
  | succ budget ih =>
      intro handle valid
      have found := List.getElem?_eq_getElem valid
      rw [invokeWithin, invokeWithin, found, holds handle _ found]
      exact validateChain_renumberAll ih _ (sound handle _ found)

/-- **A chain is evaluated alike as a part of another schema.** -/
theorem Step.validateChain_invoke (holds : HoldsBodies bodies distance part)
    (sound : ∀ (handle : Nat) body, part[handle]? = some body →
      ChainEverywhere (Sound part.length) body)
    {chain : List Step} (chainSound : ChainEverywhere (Sound part.length) chain) :
    validateChain bindings (invoke bodies bindings) (renumberAll distance chain) =
      validateChain bindings (invoke part bindings) chain := by
  funext value known
  refine Option.ext fun outcome => ?_
  rw [validateChain_eq_some_iff, validateChain_eq_some_iff]
  refine exists_congr fun budget => ?_
  rw [validateChain_renumberAll (invokeWithin_eq holds sound budget) chain chainSound]

end Parts

end Schemata
