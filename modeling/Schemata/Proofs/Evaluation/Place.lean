/-
**Reports are made at places of the value.**

Inside an object or an array the path grows by a step, and what a later step of a chain is given
narrows what the chain was given. So a path always leads to a place of the value from which the run
was started, though the steps that come there may see another value at it.

* `Json.Locates`: each step of a place goes into an object, or to an item of an array; so only the
  last name may be absent from its object;
* `Step.Visits.located`: at every visit of a run, the path leads to a place of the value, and so
  does every place inside the value that is visited;
* `Template.reports_located`: so every report of a run is made at a place of its value, also where
  the run has no outcome.
-/

import Mathlib
import Schemata.Compilation.Compile
import Schemata.Proofs.Evaluation.Evolution
import Schemata.Proofs.Evaluation.Report
import Schemata.Proofs.Evaluation.Shape

namespace Schemata

/-! ### Places -/

/-- A step goes somewhere in a value: into an object, whether or not it has a member of the name, or
to an item of an array. -/
def Segment.Opens : Segment → Json → Prop
  | key _, value => ∃ members, value = .object members
  | index position, value => ∃ items, value = .array items ∧ position < items.length

/-- **A place of a value**: what is before each step leads to a part into which the step goes. -/
def Json.Locates (value : Json) (place : List Segment) : Prop :=
  ∀ before (segment : Segment) after, place = before ++ segment :: after →
    ∃ container, value.at? before = some container ∧ segment.Opens container

/-- Whether a step goes somewhere is a matter of the shape. -/
theorem Segment.Opens.of_shape {segment : Segment} {value other : Json}
    (opens : segment.Opens value) (same : other.shape = value.shape) : segment.Opens other := by
  cases segment with
  | key name =>
      obtain ⟨members, rfl⟩ := opens
      cases other with
      | object others => exact ⟨others, rfl⟩
      | _ => cases same
  | index position =>
      obtain ⟨items, rfl, within⟩ := opens
      cases other with
      | array others =>
          have length : others.length = items.length := Json.Shape.array.inj same
          exact ⟨others, rfl, length ▸ within⟩
      | _ => cases same

namespace Json

theorem locates_nil (value : Json) : value.Locates [] :=
  fun _ _ _ split => absurd split.symm (List.append_ne_nil_of_right_ne_nil _ (List.cons_ne_nil _ _))

/-- Nothing is inside null. -/
theorem not_opens_null (segment : Segment) : ¬ segment.Opens .null := by
  intro opens
  cases segment with
  | key name =>
      obtain ⟨members, same⟩ := opens
      cases same
  | index position =>
      obtain ⟨items, same, -⟩ := opens
      cases same

/-- A place goes on in what is next to a value, or in null where nothing is. -/
theorem Locates.cons {value : Json} {segment : Segment} {rest : List Segment}
    (opens : segment.Opens value) (inside : ((value.child? segment).getD .null).Locates rest) :
    value.Locates (segment :: rest) := by
  intro before last after split
  cases before with
  | nil =>
      cases split
      exact ⟨value, rfl, opens⟩
  | cons first before =>
      cases split
      obtain ⟨container, found, opensLast⟩ := inside before last after rfl
      refine ⟨container, ?_, opensLast⟩
      rw [at?_cons]
      cases child : value.child? segment with
      | some next =>
          rw [child] at found
          exact found
      | none =>
          rw [child] at found
          obtain ⟨-, rfl⟩ := at?_of_isLeaf (.inr rfl) found
          exact absurd opensLast (not_opens_null last)

/-- **The places of a value are those of all that it narrows.** -/
theorem Narrows.locates {answer value : Json} (narrows : answer.Narrows value)
    {place : List Segment} (locates : answer.Locates place) : value.Locates place := by
  intro before segment after split
  obtain ⟨container, found, opens⟩ := locates before segment after split
  have filled : container ≠ .null := by
    rintro rfl
    exact not_opens_null segment opens
  obtain ⟨original, foundOriginal, same⟩ := narrows before container found filled
  exact ⟨original, foundOriginal, opens.of_shape same⟩

end Json

/-! ### Visits -/

namespace Step

variable {bodies : List (List Step)} {bindings : Bindings} {budget : Nat} {root : List Step}
  {value : Json} {known : Meta} {left : Nat} {before : List Moment} {spot : Spot} {index : Nat}
  {chain : List Step} {given : Json} {now : Meta}

/-- Metadata lead to a place of a value, and so does every place inside what is given there. -/
def LocatedIn (value : Json) (known : Meta) (given : Json) (now : Meta) : Prop :=
  ∃ place, now.path = known.path ++ place ∧
    ∀ rest, given.Locates rest → value.Locates (place ++ rest)

/-- What lies behind a step is located too. -/
theorem LocatedIn.enter {segment : Segment} {after : Meta}
    (located : LocatedIn value known given now) (opens : segment.Opens given)
    (same : after.path = now.path) :
    LocatedIn value known ((given.child? segment).getD .null) (after.enter segment) := by
  obtain ⟨place, path, inside⟩ := located
  refine ⟨place ++ [segment], ?_, fun rest locates => ?_⟩
  · rw [Meta.enter, same, path, List.append_assoc]
  · rw [List.append_assoc]
    exact inside (segment :: rest) (.cons opens locates)

/-- **At every visit the path leads to a place of the value.** -/
theorem Visits.located
    (visit : Visits bodies bindings budget root value known left before spot index chain
      given now) :
    LocatedIn value known given now := by
  induction visit with
  | root => exact ⟨[], (List.append_nil _).symm, fun _ locates => locates⟩
  | next visit passes ih =>
      obtain ⟨place, path, inside⟩ := ih
      have same := validate_evolves Meta.path_evolution
        (invokeWithin_evolves Meta.path_evolution _) _ _ _ _ passes
      have narrows := validate_descends Json.narrows_descent
        (invokeWithin_descends Json.narrows_descent _) _ _ _ _ _ passes rfl
      exact ⟨place, same.trans path, fun rest locates => inside rest (narrows.locates locates)⟩
  | field done visit settles ih =>
      have same := Field.validateAll_evolves Meta.path_evolution
        (invokeWithin_evolves Meta.path_evolution _) _ _ _ _ settles
      exact ih.enter ⟨_, rfl⟩ same
  | @item left before spot index chain tag rest done later given now outcome visit validates ih =>
      have same := Meta.path_evolution.closed.validateItems
        (validateChain_evolves Meta.path_evolution
          (invokeWithin_evolves Meta.path_evolution _) chain)
        _ _ _ _ validates
      have within : done.length < (done ++ given :: later).length := by
        rw [List.length_append]
        exact Nat.lt_add_of_pos_right (Nat.succ_pos _)
      have opens : (Segment.index done.length).Opens (.array (done ++ given :: later)) :=
        ⟨_, rfl, within⟩
      have entered := ih.enter opens same
      simpa [Json.child?] using entered
  | reference _ _ ih => exact ih
  | definition _ _ ih => exact ih

end Step

/-! ### Reports -/

/-- A step reports where it is begun. -/
theorem Step.path_of_mem_reports {bindings : Bindings} {step : Step} {value : Json} {known : Meta}
    {event : Event} (reported : event ∈ step.reports bindings value known) :
    event.known.path = known.path := by
  unfold reports at reported
  split at reported
  · rw [ErrorTag.known_of_mem_reports reported, Meta.describe]
  · cases reported

namespace Template

/-- **Every report of a run is made at a place of its value**: at the path from which the run is
started, and on from there along a place of the value. The reports are those of the moments of the
run, within every budget of calls, and those of its outcome, if it has one. -/
theorem reports_located {template : Template} (plain : template.suffixes = []) (bindings : Bindings)
    (value : Json) (known : Meta) :
    (∀ budget, ∀ moment ∈ template.moments bindings budget value known,
      ∀ event ∈ moment.reports bindings,
        ∃ place, event.known.path = known.path ++ place ∧ value.Locates place) ∧
    ∀ outcome, template.validate bindings value known = some outcome → ∀ event ∈ outcome.events,
      ∃ place, event.known.path = known.path ++ place ∧ value.Locates place := by
  have ofMoments : ∀ budget, ∀ moment ∈ template.moments bindings budget value known,
      ∀ event ∈ moment.reports bindings,
        ∃ place, event.known.path = known.path ++ place ∧ value.Locates place := by
    intro budget moment member event reported
    cases moment with
    | settled => cases reported
    | begun spot index step given now =>
        obtain ⟨left, before, rest, visit⟩ := Step.begun_mem_iff_visits.mp member
        obtain ⟨place, path, inside⟩ := visit.located
        rw [start, plain] at path
        refine ⟨place, (Step.path_of_mem_reports reported).trans path, ?_⟩
        have located := inside [] (Json.locates_nil given)
        rwa [List.append_nil] at located
  refine ⟨ofMoments, fun outcome ends event member => ?_⟩
  obtain ⟨budget, events⟩ := exists_reports plain ends
  rw [events] at member
  obtain ⟨moment, happens, reported⟩ := List.mem_flatMap.mp member
  exact ofMoments budget moment happens event reported

/-- A field that is absent is reported under its name, in the object of the third item. -/
theorem reports_located_absent :
    ∃ template, Template.ofText "@a(@o(n: @n!'x'))" = .ok template ∧ template.suffixes = [] ∧
      let value : Json := .array [.null, .object [("n", .string "a")], .object []]
      (∀ budget, ∀ moment ∈ template.moments .empty budget value .empty,
        ∀ event ∈ moment.reports .empty,
          ∃ place, event.known.path = Meta.empty.path ++ place ∧ value.Locates place) ∧
      ∀ outcome, template.validate .empty value .empty = some outcome → ∀ event ∈ outcome.events,
        ∃ place, event.known.path = Meta.empty.path ++ place ∧ value.Locates place := by
  have compiles : Template.ofText "@a(@o(n: @n!'x'))" =
      .ok ⟨[.array [.object [.mk "n" [.primitive .number (some (.literal "x"))] false] none] none],
        [], []⟩ := by cbv
  exact ⟨_, compiles, rfl, reports_located rfl .empty _ .empty⟩

example :
    let root : List Step :=
      [.array [.object [.mk "n" [.primitive .number (some (.literal "x"))] false] none] none]
    (Report.of (Template.validate ⟨root, [], []⟩ .empty)
        (.array [.null, .object [("n", .string "a")], .object []])).map
      (fun report => report.failures.map Failure.path) =
      some [[.index 1, .key "n"], [.index 2, .key "n"]] := by
  cbv

end Template

end Schemata
