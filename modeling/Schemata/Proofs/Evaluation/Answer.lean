/-
**How what a validation answers is related to what it is given.**

A step answers its value, a scalar that a check makes of it, or a container of what the members of
its value become. A relation between answers and values that holds in these cases holds for every
chain.

* `Run.Answers` says what holds of every answer of a run, and `Validator.Descends` relates the
  answers of a validator to its value;
* a `Json.Descent` is a relation that is kept when containers are put together again;
* `Step.validateChain_descends`: if the handles descend, so does a chain, and
  `Step.invokeWithin_descends`: so do the invocations of named schemas.
-/

import Mathlib.Data.List.Forall2
import Schemata.Proofs.Evaluation.Budget

namespace Schemata

/-! ### Answers of runs -/

/-- What every answer of a run is like. -/
def Run.Answers (holds : Json → Prop) (run : Run (Option Json)) : Prop :=
  ∀ known outcome result, run known = some outcome → outcome.result = some result → holds result

namespace Run

variable {holds : Json → Prop}

theorem answers_pure {result : Option Json} (each : ∀ answer, result = some answer → holds answer) :
    Answers holds (pure result) := by
  intro known outcome answer ends answers
  cases ends
  exact each answer answers

/-- A failure answers nothing. -/
theorem answers_failure : Answers holds (pure none) := by
  refine answers_pure fun answer same => ?_
  cases same

/-- A sequence answers what its last run answers. -/
theorem answers_bind {α : Type} {first : Run α} {next : α → Run (Option Json)}
    (each : ∀ known outcome, first known = some outcome → Answers holds (next outcome.result)) :
    Answers holds (first >>= next) := by
  intro known outcome answer ends answers
  obtain ⟨done, firstEnds, last, lastEnds, rfl⟩ := bind_eq_some.mp ends
  exact each known done firstEnds _ _ _ lastEnds answers

theorem Answers.within {segment : Segment} {run : Run (Option Json)} (answers : Answers holds run) :
    Answers holds (Run.within segment run) := by
  intro known outcome answer ends same
  obtain ⟨done, runEnds, rfl⟩ := within_eq_some.mp ends
  exact answers _ _ _ runEnds same

theorem Answers.mono {weaker : Json → Prop} {run : Run (Option Json)} (answers : Answers holds run)
    (imp : ∀ result, holds result → weaker result) : Answers weaker run :=
  fun _ _ _ ends same => imp _ (answers _ _ _ ends same)

end Run

/-- A check that fails answers nothing. -/
theorem ErrorTag.fail_answers {holds : Json → Prop} (bindings : Bindings) (tag : Option ErrorTag)
    (name : String) (params : List Json) : Run.Answers holds (fail bindings tag name params) := by
  refine Run.answers_bind fun _ _ _ => Run.answers_bind fun _ outcome _ => ?_
  cases tag with
  | none => exact Run.answers_failure
  | some tag => exact Run.answers_bind fun _ _ _ => Run.answers_failure

/-- A check that holds answers its value. -/
theorem ErrorTag.require_answers (bindings : Bindings) (tag : Option ErrorTag) (name : String)
    (params : List Json) (condition : Bool) (value : Json) :
    Run.Answers (· = value) (require bindings tag name params condition value) := by
  unfold require
  split
  · exact Run.answers_pure fun _ same => (Option.some.inj same).symm
  · exact fail_answers bindings tag name params

/-! ### Descents -/

/-- **A relation between what is answered and what is given** that is kept when values pass through
a chain, and when containers are made of the answers for their members. -/
structure Json.Descent (below : Json → Json → Prop) : Prop where
  refl : ∀ value, below value value
  trans : ∀ {last middle first}, below last middle → below middle first → below last first
  null : ∀ value, below .null value
  check : ∀ {primitive : Primitive} {value result}, primitive.check value = some result →
    below result value
  array : ∀ {answers items : List Json}, List.Forall₂ below answers items →
    below (.array answers) (.array items)
  object : ∀ {answers members : Dictionary Json},
    (∀ name answer, (name, answer) ∈ answers →
      below answer ((Dictionary.find? name members).getD .null)) →
    below (.object answers) (.object members)

/-- What a validator answers is in a relation to its value. -/
def Validator.Descends (below : Json → Json → Prop) (validator : Validator) : Prop :=
  ∀ value, Run.Answers (below · value) (validator value)

section Descends

variable {below : Json → Json → Prop} (descent : Json.Descent below)
include descent

namespace Validator

theorem accept_descends : accept.Descends below :=
  fun value => Run.answers_pure fun _ same => Option.some.inj same ▸ descent.refl value

theorem Descends.andThen {first second : Validator} (firstDescends : first.Descends below)
    (secondDescends : second.Descends below) : (first.andThen second).Descends below := by
  refine fun value => Run.answers_bind fun known outcome ends => ?_
  cases answers : outcome.result with
  | some next =>
      exact (secondDescends next).mono fun _ last =>
        descent.trans last (firstDescends value _ _ _ ends answers)
  | none => exact Run.answers_failure

theorem publishing_descends (name : String) : (publishing name none).Descends below :=
  fun value => Run.answers_bind fun _ _ _ => Run.answers_bind fun _ _ _ =>
    Run.answers_pure fun _ same => Option.some.inj same ▸ descent.refl value

theorem Descends.publishingIf {chain : Validator} (publishes : Bool) (name : String)
    (descends : chain.Descends below) : (chain.publishingIf publishes name).Descends below := by
  cases publishes with
  | false => exact descends
  | true => exact descends.andThen descent (publishing_descends descent name)

/-- What becomes of a member that fails is below every value too. -/
theorem below_getD {run : Run (Option Json)} {value : Json} {known : Meta}
    {outcome : Outcome (Option Json)} (answers : Run.Answers (below · value) run)
    (ends : run known = some outcome) : below (outcome.result.getD .null) value := by
  cases same : outcome.result with
  | none => exact descent.null value
  | some answer => exact answers _ _ _ ends same

/-- The items of an array descend one by one. -/
theorem Descends.items {item : Validator} (descends : item.Descends below) (items : List Json) :
    ∀ {position : Nat} {known : Meta} {outcome : Outcome (List Json)},
      item.validateItems position items known = some outcome →
      List.Forall₂ below outcome.result items := by
  induction items with
  | nil =>
      intro position known outcome ends
      cases ends
      exact .nil
  | cons value rest ih =>
      intro position known outcome ends
      obtain ⟨first, firstEnds, others, othersEnd, rfl⟩ := Run.bind_eq_some.mp ends
      obtain ⟨last, lastEnds, rfl⟩ := Run.map_eq_some.mp othersEnd
      exact .cons (below_getD descent (descends value).within firstEnds) (ih lastEnds)

end Validator

variable {bindings : Bindings} {call : Nat → Validator}

mutual

/-- **If the handles descend, so does a step.** -/
theorem Step.validate_descends (calls : ∀ handle, (call handle).Descends below) :
    (step : Step) → (step.validate bindings call).Descends below
  | .primitive check tag => by
      intro value
      change Run.Answers _ (check.validate bindings tag value)
      unfold Primitive.validate
      split
      · rename_i checks
        exact Run.answers_pure fun _ same => Option.some.inj same ▸ descent.check checks
      · exact ErrorTag.fail_answers _ _ _ _
  | .equality _ _ _ | .membership _ _ | .comparison _ _ _ | .lengthComparison _ _ _ =>
      fun value => Run.answers_bind fun _ _ _ =>
        (ErrorTag.require_answers _ _ _ _ _ value).mono fun _ same => same ▸ descent.refl value
  | .matching _ _ _ => fun value =>
      (ErrorTag.require_answers _ _ _ _ _ value).mono fun _ same => same ▸ descent.refl value
  | .object fields tag => by
      intro value
      cases value with
      | object members =>
          simp only [Step.validate]
          split
          · exact Run.answers_pure fun _ same => Option.some.inj same ▸ descent.refl _
          · intro known outcome result ends answers
            obtain ⟨inner, innerEnds, rfl⟩ := Run.map_eq_some.mp ends
            cases answers
            exact descent.object (Field.validateAll_descends calls fields _ _ _ innerEnds)
      | _ => exact ErrorTag.fail_answers _ _ _ _
  | .array chain tag => by
      intro value
      cases value with
      | array items =>
          intro known outcome result ends answers
          obtain ⟨inner, innerEnds, rfl⟩ := Run.map_eq_some.mp ends
          cases answers
          exact descent.array
            ((Step.validateChain_descends calls chain).items descent items innerEnds)
      | _ => exact ErrorTag.fail_answers _ _ _ _
  | .call handle | .define handle _ => calls handle

/-- **If the handles descend, so does a chain.** -/
theorem Step.validateChain_descends (calls : ∀ handle, (call handle).Descends below) :
    (chain : List Step) → (Step.validateChain bindings call chain).Descends below
  | [] => Validator.accept_descends descent
  | step :: rest =>
      (Step.validate_descends calls step).andThen descent (Step.validateChain_descends calls rest)

/-- Each field descends from the member of its name. -/
theorem Field.validateAll_descends (calls : ∀ handle, (call handle).Descends below) :
    (fields : List Field) → ∀ (members : Dictionary Json) (known : Meta)
      (outcome : Outcome (Dictionary Json)),
      Field.validateAll bindings call fields members known = some outcome →
      ∀ name answer, (name, answer) ∈ outcome.result →
        below answer ((Dictionary.find? name members).getD .null)
  | [] => by
      intro members known outcome ends name answer member
      cases ends
      cases member
  | .mk field chain publishes :: rest => by
      intro members known outcome ends name answer member
      obtain ⟨first, firstEnds, others, othersEnd, rfl⟩ := Run.bind_eq_some.mp ends
      obtain ⟨last, lastEnds, rfl⟩ := Run.map_eq_some.mp othersEnd
      rcases Dictionary.mem_insert member with same | later
      · cases same
        have chainDescends : (Step.validateChain bindings call chain).Descends below :=
          Step.validateChain_descends calls chain
        exact Validator.below_getD descent
          (chainDescends.publishingIf descent publishes field _).within firstEnds
      · exact Field.validateAll_descends calls rest _ _ _ lastEnds name answer later

end

/-- **The invocations of named schemas descend.** -/
theorem Step.invokeWithin_descends {bodies : List (List Step)} (budget : Nat) :
    ∀ handle, (Step.invokeWithin bodies bindings budget handle).Descends below := by
  induction budget with
  | zero =>
      intro _ _ _ _ _ ends
      cases ends
  | succ budget ih =>
      intro handle
      rw [Step.invokeWithin]
      split
      · exact Step.validateChain_descends descent ih _
      · exact fun _ => Run.answers_failure

end Descends

end Schemata
