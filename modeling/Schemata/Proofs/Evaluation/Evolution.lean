/-
**What a run does to the metadata.**

A run describes checks that fail, publishes values, and enters and leaves the members of containers.
A relation between the metadata before and after that is kept by each of these holds for every run.

* a `Meta.Evolution` is such a relation, and `Run.Evolves` says that a run respects it;
* `Meta.Evolution.closed`: to respect an evolution is a property that runs keep, and every check has
  it;
* `Step.validateChain_evolves`: so chains have it, and so do the invocations of named schemas;
* `Meta.path_evolution`: every run comes back to the path from which it starts.
-/

import Schemata.Proofs.Evaluation.Closure
import Schemata.Proofs.Evaluation.Failure

namespace Schemata

/-- **A relation between the metadata before and after a run**, kept by all that a run does. -/
structure Meta.Evolution (evolves : Meta → Meta → Prop) : Prop where
  refl : ∀ known, evolves known known
  trans : ∀ {first middle last}, evolves first middle → evolves middle last → evolves first last
  describe : ∀ name params known, evolves known (known.describe name params)
  publish : ∀ name value known, evolves known (known.publish name value)
  inside : ∀ {segment known after}, evolves (known.enter segment) after → evolves known after.leave

/-- A run leads from metadata to metadata that are related to them. -/
def Run.Evolves {α : Type} (evolves : Meta → Meta → Prop) (run : Run α) : Prop :=
  ∀ known outcome, run known = some outcome → evolves known outcome.known

section Evolves

variable {α β : Type} {evolves : Meta → Meta → Prop} (evolution : Meta.Evolution evolves)
include evolution

/-! ### Runs -/

namespace Run

theorem pure_evolves (result : α) : Evolves evolves (pure result) := by
  intro known outcome ends
  cases ends
  exact evolution.refl known

theorem known_evolves : Evolves evolves Run.known := by
  intro known outcome ends
  cases ends
  exact evolution.refl known

theorem Evolves.bind {first : Run α} {next : α → Run β} (firstEvolves : first.Evolves evolves)
    (nextEvolves : ∀ result, (next result).Evolves evolves) : (first >>= next).Evolves evolves := by
  intro known outcome ends
  obtain ⟨done, firstEnds, last, lastEnds, rfl⟩ := bind_eq_some.mp ends
  have lastEvolves := nextEvolves _ _ _ lastEnds
  exact evolution.trans (firstEvolves _ _ firstEnds) lastEvolves

end Run

/-- **To respect an evolution is kept by all that is done with runs.** -/
theorem Meta.Evolution.closed : Run.Closed (Run.Evolves evolves) where
  pure := Run.pure_evolves evolution
  exhausted := nofun
  bind := Run.Evolves.bind evolution
  within := by
    intro α segment run runEvolves known outcome ends
    obtain ⟨done, runEnds, rfl⟩ := Run.within_eq_some.mp ends
    exact evolution.inside (runEvolves _ _ runEnds)
  publishing := by
    intro name value known outcome ends
    cases ends
    exact evolution.publish name value known

/-! ### Chains -/

theorem ErrorTag.fail_evolves (bindings : Bindings) (tag : Option ErrorTag) (name : String)
    (params : List Json) : (fail bindings tag name params).Evolves evolves := by
  intro known outcome ends
  cases tag <;> cases ends <;> exact evolution.describe name params known

variable {bindings : Bindings} {call : Nat → Validator}

/-- A check respects every evolution. -/
theorem Step.check_evolves {step : Step} (check : step.isCheck) (value : Json) :
    (step.validate bindings call value).Evolves evolves := by
  obtain ⟨result, passed⟩ := exists_passed check bindings call value
  intro known outcome ends
  cases own : step.failure? bindings value known with
  | none =>
      cases (passed known own).symm.trans ends
      exact evolution.refl known
  | some failure =>
      rw [validate_of_failure? own] at ends
      exact ErrorTag.fail_evolves evolution _ _ _ _ known outcome ends

variable (calls : ∀ handle value, (call handle value).Evolves evolves)
include calls

/-- **If the handles respect an evolution, so does a step.** -/
theorem Step.validate_evolves (step : Step) (value : Json) :
    (step.validate bindings call value).Evolves evolves :=
  evolution.closed.validate (ErrorTag.fail_evolves evolution bindings)
    (fun _ _ => check_evolves evolution) calls step (.of_forall (fun _ => trivial) step) value

/-- **If the handles respect an evolution, so does a chain.** -/
theorem Step.validateChain_evolves (chain : List Step) (value : Json) :
    (Step.validateChain bindings call chain value).Evolves evolves :=
  evolution.closed.validateChain (ErrorTag.fail_evolves evolution bindings)
    (fun _ _ => check_evolves evolution) calls chain
    (chainEverywhere_of_forall (fun _ => trivial) chain) value

theorem Field.validateAll_evolves (fields : List Field) (members : Dictionary Json) :
    (Field.validateAll bindings call fields members).Evolves evolves :=
  evolution.closed.validateAll (ErrorTag.fail_evolves evolution bindings)
    (fun _ _ => Step.check_evolves evolution) calls fields
    (everywhere_of_forall (fun _ => trivial) fields) members

omit calls in
/-- **The invocations of named schemas respect an evolution.** -/
theorem Step.invokeWithin_evolves {bodies : List (List Step)} (budget : Nat) :
    ∀ handle value, (Step.invokeWithin bodies bindings budget handle value).Evolves evolves :=
  evolution.closed.invokeWithin (ErrorTag.fail_evolves evolution bindings)
    (fun _ _ _ => check_evolves evolution)
    (fun _ body _ => chainEverywhere_of_forall (fun _ => trivial) body) budget

end Evolves

/-- **A run comes back to its path.** -/
theorem Meta.path_evolution : Meta.Evolution fun known after => after.path = known.path where
  refl _ := rfl
  trans first last := last.trans first
  describe _ _ _ := rfl
  publish _ _ _ := rfl
  inside := by
    intro segment known after same
    rw [Meta.leave, same, Meta.enter, List.dropLast_concat]

end Schemata
