/-
**What a run reports.**

A step reports by itself if its own check fails, or if it takes a container and is given another
value; and only if it has a tag. Everything else that is reported inside a step is reported by other
steps.

* `Step.reports` is what the step reports by itself;
* `Moment.reports_chronicle`: the moments of a run tell its reports, in the order of time;
* `Step.validateChain_reports`: so the reports of a chain that has an outcome are those of its
  moments.
-/

import Schemata.Proofs.Evaluation.Chronicle

namespace Schemata

/-! ### Steps -/

/-- What is reported when a check fails: the payload of its tag, if it has one. -/
def ErrorTag.reports (bindings : Bindings) (tag : Option ErrorTag) (name : String)
    (params : List Json) (known : Meta) : List Event :=
  match tag with
  | some tag => [⟨tag.payload bindings (known.describe name params), known.describe name params⟩]
  | none => []

/-- **What a step reports by itself.** -/
def Step.reports (bindings : Bindings) (step : Step) (value : Json) (known : Meta) : List Event :=
  match step.failure? bindings value known with
  | some (name, params) => ErrorTag.reports bindings step.tag? name params known
  | none => []

/-- What is reported at a moment. -/
def Moment.reports (bindings : Bindings) : Moment → List Event
  | .begun _ _ step value known => step.reports bindings value known
  | .settled _ _ _ _ _ => []

/-- A report is made where its check is, and describes it. -/
theorem ErrorTag.known_of_mem_reports {bindings : Bindings} {tag : Option ErrorTag} {name : String}
    {params : List Json} {known : Meta} {event : Event}
    (reported : event ∈ reports bindings tag name params known) :
    event.known = known.describe name params := by
  cases tag with
  | none => cases reported
  | some tag => rw [List.mem_singleton.mp reported]

theorem ErrorTag.fail_reports {bindings : Bindings} {tag : Option ErrorTag} {name : String}
    {params : List Json} {known : Meta} {outcome : Outcome (Option Json)}
    (ends : fail bindings tag name params known = some outcome) :
    outcome.events = reports bindings tag name params known := by
  cases tag <;> cases ends <;> rfl

/-! ### Runs -/

/-- **Moments tell what is reported**: nothing but what their steps report by themselves. -/
theorem Moment.reports_chronicle (bindings : Bindings) :
    Moment.Chronicle bindings fun moments _ events _ =>
      events = moments.flatMap (Moment.reports bindings) where
  nil _ := rfl
  append first second := by rw [first, second, List.flatMap_append]
  inside _ _ _ _ _ told := told
  passed spot index step value known passes := by
    simp [Moment.reports, Step.reports, passes]
  failed spot index step value known name params outcome fails ends := by
    simp [Moment.reports, Step.reports, fails, ErrorTag.fail_reports ends]
  settled _ _ _ _ _ _ _ _ _ := rfl
  published _ _ _ _ _ _ _ := rfl

/-- **The reports of a chain are those of its moments**, in the order of time. -/
theorem Step.validateChain_reports {bodies : List (List Step)} {bindings : Bindings} {budget : Nat}
    {chain : List Step} {value : Json} {known : Meta} {outcome : Outcome (Option Json)}
    (spot : Spot) (index : Nat)
    (ends : validateChain bindings (invokeWithin bodies bindings budget) chain value known =
      some outcome) :
    outcome.events = (momentsOfChain bindings (invokeWithin bodies bindings budget)
      (momentsWithin bodies bindings budget) spot index chain value known).flatMap
        (Moment.reports bindings) :=
  have chronicle := Moment.reports_chronicle bindings
  chronicle.validateChain (chronicle.invokeWithin budget) chain spot index value known outcome ends

/-- **What a plain template reports is what its moments report**, if enough calls may be active. -/
theorem Template.exists_reports {template : Template} (plain : template.suffixes = [])
    {bindings : Bindings} {value : Json} {known : Meta} {outcome : Outcome (Option Json)}
    (ends : template.validate bindings value known = some outcome) :
    ∃ budget, outcome.events =
      (template.moments bindings budget value known).flatMap (Moment.reports bindings) := by
  rw [validate_of_plain plain] at ends
  unfold moments start
  rw [plain]
  obtain ⟨budget, rootEnds⟩ := Step.validateChain_eq_some_iff.mp ends
  exact ⟨budget, Step.validateChain_reports _ _ rootEnds⟩

end Schemata
