/-
**The moments of a run, in the order of time.**

* A `Spot` says where in a run a chain is evaluated, by the turns that lead there from the chain of
  the whole schema; one chain is evaluated at most once at a spot;
* a `Moment` is the beginning of a step's evaluation, or the end of a field's;
* `Step.momentsOfChain` lists the moments of a chain, given the validator and the moments of each
  handle, and `Template.moments` those of a run in which a budget of calls may be active at once.

Whether the evaluation goes on after a step, and from which metadata, is taken from the outcome of
`Step.validate`. Where a part of a run has no outcome, nothing is listed after the moments inside
that part, so the moments within a smaller budget come first among those within a larger one.
-/

import Schemata.Proofs.Evaluation.Budget

namespace Schemata

/-! ### Places and times -/

/-- A way from a step into a chain: of a field of its object, for an item of its array, or of the
named schema that it defines or refers to. -/
inductive Turn where
  | field (position : Nat)
  | item (position : Nat)
  | definition (handle : Nat)
  | reference (handle : Nat)
deriving DecidableEq, Repr

/-- A turn at the step of this index in its chain. -/
structure Frame where
  index : Nat
  turn : Turn
deriving DecidableEq, Repr

/-- **Where a chain is evaluated**: the turns that lead there, the last one first. -/
abbrev Spot := List Frame

/-- The handle that a turn calls. -/
def Turn.handle? : Turn → Option Nat
  | definition handle | reference handle => some handle
  | _ => none

/-- The calls that are active at a spot with no container between them and the spot, the last one
first. -/
def Spot.callsHere : Spot → List Nat
  | [] => []
  | frame :: outer => match frame.turn.handle? with
    | some handle => handle :: callsHere outer
    | none => []

/-- The number of calls that are active at a spot. -/
def Spot.callCount (spot : Spot) : Nat :=
  spot.countP fun frame => frame.turn.handle?.isSome

/-- **Something that happens in a run.** A step of a chain is begun on a value; or a field of an
object, whose step has this index in its chain, is settled with the result of its chain. -/
inductive Moment where
  | begun (spot : Spot) (index : Nat) (step : Step) (value : Json) (known : Meta)
  | settled (spot : Spot) (index position : Nat) (field : Field) (result : Option Json)

/-- How the moments of a named schema are told. -/
abbrev Teller := Nat → Spot → Json → Meta → List Moment

/-! ### Telling the moments -/

/-- The moments of the items of an array, told by position. -/
def Validator.momentsOfItems (item : Validator) (tell : Nat → Json → Meta → List Moment) :
    (position : Nat) → List Json → Meta → List Moment
  | _, [], _ => []
  | position, value :: rest, known =>
    tell position value (known.enter (.index position)) ++
      match Validator.within (.index position) item value known with
      | some done => momentsOfItems item tell (position + 1) rest done.known
      | none => []

mutual

/-- **The moments of the step of an index in the chain at a spot.** -/
def Step.moments (bindings : Bindings) (call : Nat → Validator) (tell : Teller) (spot : Spot)
    (index : Nat) : Step → Json → Meta → List Moment
  | .object fields tag, value, known =>
    .begun spot index (.object fields tag) value known :: match value with
      | .object members => Field.momentsOfAll bindings call tell spot index 0 fields members known
      | _ => []
  | .array chain tag, value, known =>
    .begun spot index (.array chain tag) value known :: match value with
      | .array items => (Step.validateChain bindings call chain).momentsOfItems
        (fun position =>
          Step.momentsOfChain bindings call tell (⟨index, .item position⟩ :: spot) 0 chain)
        0 items known
      | _ => []
  | .call handle, value, known =>
    .begun spot index (.call handle) value known ::
      tell handle (⟨index, .reference handle⟩ :: spot) value known
  | .define handle chain, value, known =>
    .begun spot index (.define handle chain) value known ::
      tell handle (⟨index, .definition handle⟩ :: spot) value known
  | step, value, known => [.begun spot index step value known]

/-- **The moments of the steps of the chain at a spot**, from the step of an index on. -/
def Step.momentsOfChain (bindings : Bindings) (call : Nat → Validator) (tell : Teller) (spot : Spot)
    (index : Nat) : List Step → Json → Meta → List Moment
  | [], _, _ => []
  | step :: rest, value, known =>
    Step.moments bindings call tell spot index step value known ++
      match step.validate bindings call value known with
      | some ⟨some next, _, after⟩ =>
        Step.momentsOfChain bindings call tell spot (index + 1) rest next after
      | _ => []

/-- The moments of the fields of an object, from the field of a position on. -/
def Field.momentsOfAll (bindings : Bindings) (call : Nat → Validator) (tell : Teller) (spot : Spot)
    (index position : Nat) : List Field → Dictionary Json → Meta → List Moment
  | [], _, _ => []
  | .mk name chain publishes :: rest, members, known =>
    Step.momentsOfChain bindings call tell (⟨index, .field position⟩ :: spot) 0 chain
        ((Dictionary.find? name members).getD .null) (known.enter (.key name)) ++
      match Field.validate bindings call (.mk name chain publishes)
          ((Dictionary.find? name members).getD .null) known with
      | some done =>
        .settled spot index position (.mk name chain publishes) done.result ::
          Field.momentsOfAll bindings call tell spot index (position + 1) rest members done.known
      | none => []

end

/-- The moments of a named schema, with at most `budget` calls active at once. -/
def Step.momentsWithin (bodies : List (List Step)) (bindings : Bindings) : (budget : Nat) → Teller
  | 0, _, _ => fun _ _ => []
  | budget + 1, handle, spot =>
    match bodies[handle]? with
    | some body => Step.momentsOfChain bindings (Step.invokeWithin bodies bindings budget)
      (Step.momentsWithin bodies bindings budget) spot 0 body
    | none => fun _ _ => []

/-! ### Runs that end -/

section Ends

variable {bindings : Bindings} {call call' : Nat → Validator} {tell tell' : Teller}

theorem Validator.momentsOfItems_eq_of_ends {item item' : Validator}
    {tellItem tellItem' : Nat → Json → Meta → List Moment}
    (larger : ∀ value, (item' value).Extends (item value))
    (same : ∀ position value known outcome, item value known = some outcome →
      tellItem position value known = tellItem' position value known)
    (items : List Json) : ∀ (position : Nat) (known : Meta) (outcome : Outcome (List Json)),
    item.validateItems position items known = some outcome →
    item.momentsOfItems tellItem position items known =
      item'.momentsOfItems tellItem' position items known := by
  induction items with
  | nil => exact fun _ _ _ _ => rfl
  | cons value rest ih =>
      intro position known outcome ends
      obtain ⟨first, firstEnds, others, othersEnd, rfl⟩ := Run.bind_eq_some.mp ends
      obtain ⟨last, lastEnds, rfl⟩ := Run.map_eq_some.mp othersEnd
      have firstEnds' : Validator.within (.index position) item' value known = some first :=
        Run.Extends.within (.index position) (larger value) _ _ firstEnds
      obtain ⟨inner, innerEnds, rfl⟩ := Run.within_eq_some.mp firstEnds
      have whole := same position value _ _ innerEnds
      simp only [Validator.momentsOfItems, whole, firstEnds, firstEnds', ih _ _ _ lastEnds]

mutual

/-- A step that has an outcome has the same moments where calls have more outcomes. -/
theorem Step.moments_eq_of_ends
    (larger : ∀ handle value, (call' handle value).Extends (call handle value))
    (same : ∀ handle spot value known outcome, call handle value known = some outcome →
      tell handle spot value known = tell' handle spot value known) :
    (step : Step) → ∀ (spot : Spot) (index : Nat) (value : Json) (known : Meta)
      (outcome : Outcome (Option Json)), step.validate bindings call value known = some outcome →
      step.moments bindings call tell spot index value known =
        step.moments bindings call' tell' spot index value known
  | .object fields tag => by
      intro spot index value known outcome ends
      cases value with
      | object members =>
          simp only [Step.validate] at ends
          split at ends
          · rename_i none
            rw [List.isEmpty_iff.mp none]
            rfl
          · obtain ⟨inner, innerEnds, -⟩ := Run.map_eq_some.mp ends
            simp only [Step.moments]
            rw [Field.momentsOfAll_eq_of_ends larger same fields _ _ _ _ _ _ innerEnds]
      | _ => rfl
  | .array chain tag => by
      intro spot index value known outcome ends
      cases value with
      | array items =>
          obtain ⟨inner, innerEnds, -⟩ := Run.map_eq_some.mp ends
          simp only [Step.moments]
          rw [Validator.momentsOfItems_eq_of_ends
            (Step.validateChain_extends larger chain)
            (fun _ _ _ _ => Step.momentsOfChain_eq_of_ends larger same chain _ _ _ _ _)
            items 0 known inner innerEnds]
      | _ => rfl
  | .call handle => by
      intro spot index value known outcome ends
      simp only [Step.moments]
      rw [same handle _ value known outcome ends]
  | .define handle chain => by
      intro spot index value known outcome ends
      simp only [Step.moments]
      rw [same handle _ value known outcome ends]
  | .primitive _ _ | .equality _ _ _ | .membership _ _ | .matching _ _ _ | .comparison _ _ _
  | .lengthComparison _ _ _ => fun _ _ _ _ _ _ => rfl

/-- A chain that has an outcome has the same moments where calls have more outcomes. -/
theorem Step.momentsOfChain_eq_of_ends
    (larger : ∀ handle value, (call' handle value).Extends (call handle value))
    (same : ∀ handle spot value known outcome, call handle value known = some outcome →
      tell handle spot value known = tell' handle spot value known) :
    (chain : List Step) → ∀ (spot : Spot) (index : Nat) (value : Json) (known : Meta)
      (outcome : Outcome (Option Json)),
      Step.validateChain bindings call chain value known = some outcome →
      Step.momentsOfChain bindings call tell spot index chain value known =
        Step.momentsOfChain bindings call' tell' spot index chain value known
  | [] => fun _ _ _ _ _ _ => rfl
  | step :: rest => by
      intro spot index value known outcome ends
      obtain ⟨first, firstEnds, last, lastEnds, rfl⟩ := Run.bind_eq_some.mp ends
      have firstEnds' := Step.validate_extends larger step value _ _ firstEnds
      simp only [Step.momentsOfChain]
      rw [Step.moments_eq_of_ends larger same step _ _ _ _ _ firstEnds, firstEnds, firstEnds']
      obtain ⟨result, events, after⟩ := first
      cases result with
      | none => rfl
      | some next =>
          simp only
          rw [Step.momentsOfChain_eq_of_ends larger same rest _ _ _ _ _ lastEnds]

/-- Fields that have an outcome have the same moments where calls have more outcomes. -/
theorem Field.momentsOfAll_eq_of_ends
    (larger : ∀ handle value, (call' handle value).Extends (call handle value))
    (same : ∀ handle spot value known outcome, call handle value known = some outcome →
      tell handle spot value known = tell' handle spot value known) :
    (fields : List Field) → ∀ (spot : Spot) (index position : Nat) (members : Dictionary Json)
      (known : Meta) (outcome : Outcome (Dictionary Json)),
      Field.validateAll bindings call fields members known = some outcome →
      Field.momentsOfAll bindings call tell spot index position fields members known =
        Field.momentsOfAll bindings call' tell' spot index position fields members known
  | [] => fun _ _ _ _ _ _ _ => rfl
  | .mk name chain publishes :: rest => by
      intro spot index position members known outcome ends
      obtain ⟨first, firstEnds, others, othersEnd, rfl⟩ := Run.bind_eq_some.mp ends
      obtain ⟨last, lastEnds, rfl⟩ := Run.map_eq_some.mp othersEnd
      have firstEnds' := Field.validate_extends larger (.mk name chain publishes) _ _ _ firstEnds
      obtain ⟨inner, innerEnds, -⟩ := Run.within_eq_some.mp firstEnds
      obtain ⟨chainOutcome, chainEnds⟩ : ∃ outcome, Step.validateChain bindings call chain
          ((Dictionary.find? name members).getD .null) (known.enter (.key name)) =
            some outcome := by
        cases publishes with
        | false => exact ⟨inner, innerEnds⟩
        | true =>
            obtain ⟨chainOutcome, chainEnds, -⟩ := Run.bind_eq_some.mp innerEnds
            exact ⟨chainOutcome, chainEnds⟩
      simp only [Field.momentsOfAll]
      rw [Step.momentsOfChain_eq_of_ends larger same chain _ _ _ _ _ chainEnds,
        firstEnds, firstEnds']
      simp only
      rw [Field.momentsOfAll_eq_of_ends larger same rest _ _ _ _ _ _ lastEnds]

end

variable {bodies : List (List Step)}

theorem Step.momentsWithin_eq_of_ends (fewer : Nat) : ∀ {more : Nat}, fewer ≤ more →
    ∀ (handle : Nat) (spot : Spot) (value : Json) (known : Meta) (outcome : Outcome (Option Json)),
    Step.invokeWithin bodies bindings fewer handle value known = some outcome →
    Step.momentsWithin bodies bindings fewer handle spot value known =
      Step.momentsWithin bodies bindings more handle spot value known := by
  induction fewer with
  | zero =>
      intro more _ handle spot value known outcome ends
      cases ends
  | succ fewer ih =>
      intro more le handle spot value known outcome ends
      obtain ⟨more, rfl⟩ := Nat.exists_eq_add_of_lt le
      rw [Step.invokeWithin] at ends
      rw [Step.momentsWithin, Step.momentsWithin]
      cases found : bodies[handle]? with
      | none => rfl
      | some body =>
          rw [found] at ends
          exact Step.momentsOfChain_eq_of_ends
            (Step.invokeWithin_extends (Nat.le_trans (Nat.le_add_right _ _) (Nat.le_of_eq rfl)))
            (ih (Nat.le_trans (Nat.le_add_right _ _) (Nat.le_of_eq rfl))) body _ _ _ _ _ ends

/-- **A run that ends within a budget has the same moments within larger ones.** -/
theorem Step.momentsOfChain_within_eq {fewer more : Nat} (le : fewer ≤ more) {chain : List Step}
    {spot : Spot} {index : Nat} {value : Json} {known : Meta} {outcome : Outcome (Option Json)}
    (ends : Step.validateChain bindings (Step.invokeWithin bodies bindings fewer) chain
      value known = some outcome) :
    Step.momentsOfChain bindings (Step.invokeWithin bodies bindings fewer)
        (Step.momentsWithin bodies bindings fewer) spot index chain value known =
      Step.momentsOfChain bindings (Step.invokeWithin bodies bindings more)
        (Step.momentsWithin bodies bindings more) spot index chain value known :=
  Step.momentsOfChain_eq_of_ends (Step.invokeWithin_extends le)
    (Step.momentsWithin_eq_of_ends fewer le) chain _ _ _ _ _ ends

end Ends

/-! ### Whole runs -/

/-- The metadata from which a suffix runs what it is put around. -/
def Suffix.start : Suffix → Meta → Meta
  | .collecting _, known => known
  | .apart, _ => .empty

namespace Template

variable (template : Template) (bindings : Bindings)

/-- The metadata from which the chain of the whole schema is run. -/
def start (known : Meta) : Meta :=
  template.suffixes.foldr Suffix.start known

/-- **The moments of a run of a bound template**, with at most `budget` calls active at once. -/
def moments (budget : Nat) (value : Json) (known : Meta) : List Moment :=
  Step.momentsOfChain bindings (Step.invokeWithin template.bodies bindings budget)
    (Step.momentsWithin template.bodies bindings budget) [] 0 template.root value
    (template.start known)

end Template

end Schemata
