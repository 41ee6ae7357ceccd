/-
**What the moments of a run tell of it.**

The moments of a run are those of its parts in the order of time, and so are its reports and the
changes of its metadata. What moments tell of reports and metadata is therefore told of a whole run
if it is told of a beginning, of a field that is settled, and of two parts after each other.

* `Moment.Chronicle` is such a relation;
* `Moment.Chronicle.validateChain`: it holds between the moments of a chain and every outcome of it,
  if it does for the handles;
* `Moment.Chronicle.invokeWithin`: and so it does for the invocations of named schemas.
-/

import Schemata.Proofs.Evaluation.Failure
import Schemata.Proofs.Evaluation.Visit

namespace Schemata

/-- **What some moments tell of a run**: of the metadata from which it starts, of its reports, and
of the metadata that it leaves. -/
structure Moment.Chronicle (bindings : Bindings)
    (tells : List Moment → Meta → List Event → Meta → Prop) : Prop where
  nil : ∀ known, tells [] known [] known
  append : ∀ {first second known events middle more after}, tells first known events middle →
    tells second middle more after → tells (first ++ second) known (events ++ more) after
  inside :
    ∀ segment {moments known events after}, tells moments (known.enter segment) events after →
    tells moments known events after.leave
  passed : ∀ spot index {step value known}, step.failure? bindings value known = none →
    tells [.begun spot index step value known] known [] known
  failed : ∀ spot index {step value known name params outcome},
    step.failure? bindings value known = some (name, params) →
      ErrorTag.fail bindings step.tag? name params known = some outcome →
        tells [.begun spot index step value known] known outcome.events outcome.known
  settled : ∀ spot index position name chain {publishes result} known, publishes = false ∨
    result = none →
    tells [.settled spot index position (.mk name chain publishes) result] known [] known
  published : ∀ spot index position name chain answer known,
    tells [.settled spot index position (.mk name chain true) (some answer)] known []
      (known.publish name answer)

/-- The moments of the handles tell of their validators. -/
def Teller.Tells (tells : List Moment → Meta → List Event → Meta → Prop) (tell : Teller)
    (call : Nat → Validator) : Prop :=
  ∀ handle spot value known outcome, call handle value known = some outcome →
    tells (tell handle spot value known) known outcome.events outcome.known

namespace Moment.Chronicle

variable {bindings : Bindings} {tells : List Moment → Meta → List Event → Meta → Prop}
  (chronicle : Chronicle bindings tells)
include chronicle

/-! ### Fields and items -/

/-- A beginning comes before what is inside its step. -/
theorem begun (spot : Spot) (index : Nat) {step : Step} {value : Json} {known after : Meta}
    {moments : List Moment} {events : List Event}
    (passes : step.failure? bindings value known = none)
    (later : tells moments known events after) :
    tells (.begun spot index step value known :: moments) known events after :=
  chronicle.append (chronicle.passed spot index passes) later

/-- The items of an array. -/
theorem validateItems {item : Validator} {tellItem : Nat → Json → Meta → List Moment}
    (told : ∀ position value known outcome, item value known = some outcome →
      tells (tellItem position value known) known outcome.events outcome.known)
    (items : List Json) : ∀ (position : Nat) (known : Meta) (outcome : Outcome (List Json)),
    item.validateItems position items known = some outcome →
    tells (item.momentsOfItems tellItem position items known) known outcome.events
      outcome.known := by
  induction items with
  | nil =>
      intro position known outcome ends
      cases ends
      exact chronicle.nil known
  | cons value rest ih =>
      intro position known outcome ends
      obtain ⟨first, firstEnds, others, othersEnd, rfl⟩ := Run.bind_eq_some.mp ends
      obtain ⟨last, lastEnds, rfl⟩ := Run.map_eq_some.mp othersEnd
      simp only [Validator.momentsOfItems, firstEnds]
      refine chronicle.append ?_ (ih _ _ _ lastEnds)
      obtain ⟨inner, innerEnds, rfl⟩ := Run.within_eq_some.mp firstEnds
      exact chronicle.inside _ (told position value _ _ innerEnds)

/-- A field is settled after its chain. -/
theorem validateField {call : Nat → Validator} {name : String} {chain : List Step}
    {publishes : Bool} {value : Json} {known : Meta} {outcome : Outcome (Option Json)}
    {moments : List Moment}
    (told : ∀ inner, Step.validateChain bindings call chain value (known.enter (.key name)) =
      some inner → tells moments (known.enter (.key name)) inner.events inner.known)
    (ends : Field.validate bindings call (.mk name chain publishes) value known = some outcome)
    (spot : Spot) (index position : Nat) :
    tells
      (moments ++ [Moment.settled spot index position (.mk name chain publishes) outcome.result])
      known outcome.events outcome.known := by
  obtain ⟨done, doneEnds, rfl⟩ := Run.within_eq_some.mp ends
  refine chronicle.inside (.key name) ?_
  cases publishes with
  | false =>
      rw [← List.append_nil done.events]
      exact chronicle.append (told done doneEnds) (chronicle.settled _ _ _ _ _ _ (.inl rfl))
  | true =>
      obtain ⟨⟨result, events, after⟩, innerEnds, last, lastEnds, rfl⟩ :=
        Run.bind_eq_some.mp doneEnds
      refine chronicle.append (told _ innerEnds) ?_
      cases result with
      | none =>
          cases lastEnds
          exact chronicle.settled _ _ _ _ _ _ (.inr rfl)
      | some answer =>
          cases lastEnds
          exact chronicle.published _ _ _ _ _ answer after

/-! ### Chains -/

variable {call : Nat → Validator} {tell : Teller}

/-- A check passes, or fails by itself. -/
theorem check {step : Step} (check : step.isCheck) (spot : Spot) (index : Nat) {value : Json}
    {known : Meta} {outcome : Outcome (Option Json)}
    (ends : step.validate bindings call value known = some outcome) :
    tells [.begun spot index step value known] known outcome.events outcome.known := by
  cases own : step.failure? bindings value known with
  | none =>
      obtain ⟨result, passed⟩ := Step.exists_passed check bindings call value
      cases (passed known own).symm.trans ends
      exact chronicle.passed spot index own
  | some failure =>
      rw [Step.validate_of_failure? own] at ends
      exact chronicle.failed spot index own ends

mutual

/-- **The moments of a step tell of its outcome.** -/
theorem validate (calls : tell.Tells tells call) :
    (step : Step) → ∀ (spot : Spot) (index : Nat) (value : Json) (known : Meta)
      (outcome : Outcome (Option Json)), step.validate bindings call value known = some outcome →
      tells (step.moments bindings call tell spot index value known) known outcome.events
        outcome.known
  | .object fields tag => by
      intro spot index value known outcome ends
      cases value with
      | object members =>
          refine chronicle.begun _ _ rfl ?_
          simp only [Step.validate] at ends
          split at ends
          · rename_i none
            cases ends
            rw [List.isEmpty_iff.mp none]
            exact chronicle.nil known
          · obtain ⟨inner, innerEnds, rfl⟩ := Run.map_eq_some.mp ends
            exact validateAll calls fields _ _ _ _ _ _ innerEnds
      | _ => exact chronicle.failed spot index rfl ends
  | .array chain tag => by
      intro spot index value known outcome ends
      cases value with
      | array items =>
          obtain ⟨inner, innerEnds, rfl⟩ := Run.map_eq_some.mp ends
          exact chronicle.begun _ _ rfl (chronicle.validateItems
            (fun _ _ _ _ => validateChain calls chain _ _ _ _ _) items 0 known inner innerEnds)
      | _ => exact chronicle.failed spot index rfl ends
  | .call handle | .define handle _ => fun _ _ _ _ _ ends =>
      chronicle.begun _ _ rfl (calls handle _ _ _ _ ends)
  | .primitive _ _ | .equality _ _ _ | .membership _ _ | .matching _ _ _ | .comparison _ _ _
  | .lengthComparison _ _ _ => fun spot index _ _ _ ends => chronicle.check rfl spot index ends

/-- **The moments of a chain tell of its outcome.** -/
theorem validateChain (calls : tell.Tells tells call) :
    (chain : List Step) → ∀ (spot : Spot) (index : Nat) (value : Json) (known : Meta)
      (outcome : Outcome (Option Json)),
      Step.validateChain bindings call chain value known = some outcome →
      tells (Step.momentsOfChain bindings call tell spot index chain value known) known
        outcome.events outcome.known
  | [] => by
      intro spot index value known outcome ends
      cases ends
      exact chronicle.nil known
  | step :: rest => by
      intro spot index value known outcome ends
      obtain ⟨first, firstEnds, last, lastEnds, rfl⟩ := Run.bind_eq_some.mp ends
      rw [Step.momentsOfChain_cons, firstEnds]
      refine chronicle.append (validate calls step _ _ _ _ _ firstEnds) ?_
      obtain ⟨result, events, after⟩ := first
      cases result with
      | none =>
          cases lastEnds
          exact chronicle.nil after
      | some next => exact validateChain calls rest spot (index + 1) _ _ _ lastEnds

/-- The moments of some fields tell of their outcome. -/
theorem validateAll (calls : tell.Tells tells call) :
    (fields : List Field) → ∀ (spot : Spot) (index position : Nat) (members : Dictionary Json)
      (known : Meta) (outcome : Outcome (Dictionary Json)),
      Field.validateAll bindings call fields members known = some outcome →
      tells (Field.momentsOfAll bindings call tell spot index position fields members known) known
        outcome.events outcome.known
  | [] => by
      intro spot index position members known outcome ends
      cases ends
      exact chronicle.nil known
  | .mk name chain publishes :: rest => by
      intro spot index position members known outcome ends
      obtain ⟨first, firstEnds, others, othersEnd, rfl⟩ := Run.bind_eq_some.mp ends
      obtain ⟨last, lastEnds, rfl⟩ := Run.map_eq_some.mp othersEnd
      simp only [Field.momentsOfAll, firstEnds]
      rw [List.append_cons]
      exact chronicle.append
        (chronicle.validateField (validateChain calls chain _ _ _ _) firstEnds spot index position)
        (validateAll calls rest _ _ _ _ _ _ lastEnds)

end

/-- **The moments of an invocation tell of its outcome.** -/
theorem invokeWithin {bodies : List (List Step)} (budget : Nat) :
    (Step.momentsWithin bodies bindings budget).Tells tells
      (Step.invokeWithin bodies bindings budget) := by
  induction budget with
  | zero =>
      intro handle spot value known outcome ends
      cases ends
  | succ budget ih =>
      intro handle spot value known outcome ends
      rw [Step.invokeWithin] at ends
      rw [Step.momentsWithin]
      cases found : bodies[handle]? with
      | none =>
          rw [found] at ends
          cases ends
          exact chronicle.nil known
      | some body =>
          rw [found] at ends
          exact chronicle.validateChain ih body _ _ _ _ _ ends

end Moment.Chronicle

end Schemata
