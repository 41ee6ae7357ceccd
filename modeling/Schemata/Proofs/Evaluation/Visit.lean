/-
**The evaluations of a run, one after another.**

`Step.Visits` says that in a run the rest of a chain comes to be evaluated at a spot, after some
moments. Its rules go from an evaluation to the next one: on to the next step, or into a field, an
item or a named schema. What holds at every evaluation of a run is proved by induction on them.

* `Visits.moments_isPrefix`: the moments before a visit and those of its chain begin the list of
  moments;
* `each_momentsOfChain`: every beginning in the list is a visit;
* `begun_iff_visits`: so the visits are the beginnings in the list of moments;
* `Visits.unique`: a run comes to a step of a spot at most once, and settles a field at most once.
-/

import Schemata.Proofs.Evaluation.Moment

namespace Schemata

/-! ### Moments after moments -/

/-- Each of some moments is so, given those before it. -/
def Moment.Each (holds : List Moment → Moment → Prop) : (before : List Moment) → List Moment → Prop
  | _, [] => True
  | before, moment :: rest => holds before moment ∧ Each holds (before ++ [moment]) rest

namespace Moment

variable {holds : List Moment → Moment → Prop}

theorem each_append {before first second : List Moment} :
    Each holds before (first ++ second) ↔
      Each holds before first ∧ Each holds (before ++ first) second := by
  induction first generalizing before with
  | nil => simp [Each]
  | cons moment rest ih => simp [Each, ih, and_assoc]

theorem each_split {before earlier later : List Moment} {moment : Moment}
    (each : Each holds before (earlier ++ moment :: later)) : holds (before ++ earlier) moment :=
  (each_append.mp each).2.1

end Moment

/-! ### The first moments -/

section First

variable {bindings : Bindings} {call : Nat → Validator} {tell : Teller} {spot : Spot} {index : Nat}

theorem Step.momentsOfChain_cons (step : Step) (rest : List Step) (value : Json) (known : Meta) :
    Step.momentsOfChain bindings call tell spot index (step :: rest) value known =
      step.moments bindings call tell spot index value known ++
        match step.validate bindings call value known with
        | some ⟨some next, _, after⟩ =>
          Step.momentsOfChain bindings call tell spot (index + 1) rest next after
        | _ => [] := rfl

/-- A step begins with its beginning. -/
theorem Step.moments_eq_cons (step : Step) (value : Json) (known : Meta) :
    ∃ inside, step.moments bindings call tell spot index value known =
      .begun spot index step value known :: inside := by
  cases step <;> exact ⟨_, rfl⟩

/-- The fields that are settled come first. -/
theorem Field.momentsOfAll_append {done later : List Field} {members : Dictionary Json}
    {known : Meta} {outcome : Outcome (Dictionary Json)} {position : Nat}
    (ends : Field.validateAll bindings call done members known = some outcome) :
    Field.momentsOfAll bindings call tell spot index position (done ++ later) members known =
      Field.momentsOfAll bindings call tell spot index position done members known ++
        Field.momentsOfAll bindings call tell spot index (position + done.length) later members
          outcome.known := by
  induction done generalizing known outcome position with
  | nil => cases ends; rfl
  | cons field done ih =>
      obtain ⟨name, chain, publishes⟩ := field
      obtain ⟨first, firstEnds, rest, restEnds, rfl⟩ := Run.bind_eq_some.mp ends
      obtain ⟨last, lastEnds, rfl⟩ := Run.map_eq_some.mp restEnds
      simp only [List.cons_append, Field.momentsOfAll, firstEnds, ih lastEnds, List.append_assoc,
        List.length_cons, Nat.add_right_comm position 1, Nat.add_assoc]

/-- A field is settled between the fields before it and those behind it. -/
theorem Field.momentsOfAll_settled {done : List Field} {members : Dictionary Json} {field : Field} :
    ∀ {start position : Nat} {known : Meta} {outcome : Outcome (Dictionary Json)},
      Field.validateAll bindings call done members known = some outcome →
      done[position]? = some field →
      ∃ first result now,
        Field.momentsOfAll bindings call tell spot index start done members known =
        first ++ Moment.settled spot index (start + position) field result ::
          Field.momentsOfAll bindings call tell spot index (start + position + 1)
            (done.drop (position + 1)) members now := by
  induction done with
  | nil => exact fun _ => nofun
  | cons one rest ih =>
      intro start position known outcome ends found
      obtain ⟨name, chain, publishes⟩ := one
      obtain ⟨first, firstEnds, others, othersEnd, rfl⟩ := Run.bind_eq_some.mp ends
      obtain ⟨last, lastEnds, rfl⟩ := Run.map_eq_some.mp othersEnd
      simp only [Field.momentsOfAll, firstEnds]
      cases position with
      | zero =>
          cases found
          exact ⟨_, _, _, rfl⟩
      | succ position =>
          obtain ⟨middle, result, now, whole⟩ := @ih (start + 1) _ _ _ lastEnds found
          have place : start + 1 + position = start + (position + 1) := by omega
          rw [whole, place, ← List.cons_append, ← List.append_assoc]
          exact ⟨_, _, _, rfl⟩

/-- The items that are validated come first. -/
theorem Validator.momentsOfItems_append {item : Validator}
    {tellItem : Nat → Json → Meta → List Moment} {done later : List Json} {known : Meta}
    {outcome : Outcome (List Json)} {position : Nat}
    (ends : item.validateItems position done known = some outcome) :
    item.momentsOfItems tellItem position (done ++ later) known =
      item.momentsOfItems tellItem position done known ++
        item.momentsOfItems tellItem (position + done.length) later outcome.known := by
  induction done generalizing known outcome position with
  | nil => cases ends; rfl
  | cons value done ih =>
      obtain ⟨first, firstEnds, rest, restEnds, rfl⟩ := Run.bind_eq_some.mp ends
      obtain ⟨last, lastEnds, rfl⟩ := Run.map_eq_some.mp restEnds
      simp only [List.cons_append, Validator.momentsOfItems, firstEnds, ih lastEnds,
        List.append_assoc, List.length_cons, Nat.add_right_comm position 1, Nat.add_assoc]

/-- Fields are validated one after another. -/
theorem Field.validateAll_append {done : List Field} (later : List Field)
    {members : Dictionary Json} {known : Meta} {first last : Outcome (Dictionary Json)}
    (firstEnds : Field.validateAll bindings call done members known = some first)
    (lastEnds : Field.validateAll bindings call later members first.known = some last) :
    ∃ outcome, Field.validateAll bindings call (done ++ later) members known = some outcome ∧
      outcome.known = last.known := by
  induction done generalizing known first with
  | nil => cases firstEnds; exact ⟨last, lastEnds, rfl⟩
  | cons field done ih =>
      obtain ⟨name, chain, publishes⟩ := field
      obtain ⟨one, oneEnds, rest, restEnds, rfl⟩ := Run.bind_eq_some.mp firstEnds
      obtain ⟨others, othersEnd, rfl⟩ := Run.map_eq_some.mp restEnds
      obtain ⟨outcome, ends, same⟩ := ih othersEnd lastEnds
      exact ⟨_, Run.bind_eq_some.mpr ⟨one, oneEnds, _, Run.map_eq_some.mpr ⟨outcome, ends, rfl⟩,
        rfl⟩, same⟩

/-- Items are validated one after another. -/
theorem Validator.validateItems_append {item : Validator} {done : List Json} (later : List Json)
    {known : Meta}
    {position : Nat} {first last : Outcome (List Json)}
    (firstEnds : item.validateItems position done known = some first)
    (lastEnds : item.validateItems (position + done.length) later first.known = some last) :
    ∃ outcome, item.validateItems position (done ++ later) known = some outcome ∧
      outcome.known = last.known := by
  induction done generalizing known first position with
  | nil => cases firstEnds; exact ⟨last, lastEnds, rfl⟩
  | cons value done ih =>
      obtain ⟨one, oneEnds, rest, restEnds, rfl⟩ := Run.bind_eq_some.mp firstEnds
      obtain ⟨others, othersEnd, rfl⟩ := Run.map_eq_some.mp restEnds
      rw [List.length_cons, Nat.add_comm done.length, ← Nat.add_assoc] at lastEnds
      obtain ⟨outcome, ends, same⟩ := ih othersEnd lastEnds
      exact ⟨_, Run.bind_eq_some.mpr ⟨one, oneEnds, _, Run.map_eq_some.mpr ⟨outcome, ends, rfl⟩,
        rfl⟩, same⟩

end First

namespace Step

/-! ### Visits -/

/-- **An evaluation of a run**: of the rest of the chain at a spot, from the step of an index on,
after some moments and with a budget left. The run is that of the chain `root`. -/
inductive Visits (bodies : List (List Step)) (bindings : Bindings) (budget : Nat) (root : List Step)
    (value : Json) (known : Meta) :
    (left : Nat) → (before : List Moment) → Spot → (index : Nat) → List Step → Json → Meta → Prop
  | root : Visits bodies bindings budget root value known budget [] [] 0 root value known
  | next {left : Nat} {before : List Moment} {spot : Spot} {index : Nat} {step : Step}
      {rest : List Step} {given result : Json} {now after : Meta} {events : List Event}
      (visit : Visits bodies bindings budget root value known left before spot index (step :: rest)
        given now)
      (passes : step.validate bindings (invokeWithin bodies bindings left) given now =
        some ⟨some result, events, after⟩) :
      Visits bodies bindings budget root value known left
        (before ++ step.moments bindings (invokeWithin bodies bindings left)
          (momentsWithin bodies bindings left) spot index given now)
        spot (index + 1) rest result after
  | field {left : Nat} {before : List Moment} {spot : Spot} {index : Nat} (done : List Field)
      {later : List Field} {name : String} {chain : List Step} {publishes : Bool}
      {tag : Option ErrorTag} {rest : List Step} {members : Dictionary Json} {now : Meta}
      {outcome : Outcome (Dictionary Json)}
      (visit : Visits bodies bindings budget root value known left before spot index
        (.object (done ++ .mk name chain publishes :: later) tag :: rest) (.object members) now)
      (settles : Field.validateAll bindings (invokeWithin bodies bindings left) done members now =
        some outcome) :
      Visits bodies bindings budget root value known left
        (before ++ .begun spot index (.object (done ++ .mk name chain publishes :: later) tag)
            (.object members) now ::
          Field.momentsOfAll bindings (invokeWithin bodies bindings left)
            (momentsWithin bodies bindings left) spot index 0 done members now)
        (⟨index, .field done.length⟩ :: spot) 0 chain ((Dictionary.find? name members).getD .null)
        (outcome.known.enter (.key name))
  | item {left : Nat} {before : List Moment} {spot : Spot} {index : Nat} {chain : List Step}
      {tag : Option ErrorTag} {rest : List Step} (done : List Json) {later : List Json}
      {given : Json} {now : Meta} {outcome : Outcome (List Json)}
      (visit : Visits bodies bindings budget root value known left before spot index
        (.array chain tag :: rest) (.array (done ++ given :: later)) now)
      (validates : (validateChain bindings (invokeWithin bodies bindings left)
        chain).validateItems 0 done now = some outcome) :
      Visits bodies bindings budget root value known left
        (before ++ .begun spot index (.array chain tag) (.array (done ++ given :: later)) now ::
          (validateChain bindings (invokeWithin bodies bindings left) chain).momentsOfItems
            (fun position => momentsOfChain bindings (invokeWithin bodies bindings left)
              (momentsWithin bodies bindings left) (⟨index, .item position⟩ :: spot) 0 chain)
            0 done now)
        (⟨index, .item done.length⟩ :: spot) 0 chain given
        (outcome.known.enter (.index done.length))
  | reference {left : Nat} {before : List Moment} {spot : Spot} {index handle : Nat}
      {rest body : List Step} {given : Json} {now : Meta}
      (visit : Visits bodies bindings budget root value known (left + 1) before spot index
        (.call handle :: rest) given now)
      (found : bodies[handle]? = some body) :
      Visits bodies bindings budget root value known left
        (before ++ [Moment.begun spot index (.call handle) given now])
        (⟨index, .reference handle⟩ :: spot) 0 body given now
  | definition {left : Nat} {before : List Moment} {spot : Spot} {index handle : Nat}
      {chain rest body : List Step} {given : Json} {now : Meta}
      (visit : Visits bodies bindings budget root value known (left + 1) before spot index
        (.define handle chain :: rest) given now)
      (found : bodies[handle]? = some body) :
      Visits bodies bindings budget root value known left
        (before ++ [Moment.begun spot index (.define handle chain) given now])
        (⟨index, .definition handle⟩ :: spot) 0 body given now

/-! ### Visits are beginnings -/

section Prefix

variable {bodies : List (List Step)} {bindings : Bindings} {budget : Nat} {root : List Step}
  {value : Json} {known : Meta} {left : Nat} {before : List Moment} {spot : Spot} {index : Nat}
  {chain : List Step} {given : Json} {now : Meta}

/-- **The moments before a visit and those of its chain begin the moments of the run.** -/
theorem Visits.moments_isPrefix
    (visit : Visits bodies bindings budget root value known left before spot index chain
      given now) :
    before ++ momentsOfChain bindings (invokeWithin bodies bindings left)
        (momentsWithin bodies bindings left) spot index chain given now <+:
      momentsOfChain bindings (invokeWithin bodies bindings budget)
        (momentsWithin bodies bindings budget) [] 0 root value known := by
  induction visit with
  | root => exact List.prefix_rfl
  | next visit passes ih =>
      rw [momentsOfChain_cons, passes, ← List.append_assoc] at ih
      exact ih
  | field _ visit settles ih =>
      rw [momentsOfChain_cons] at ih
      refine List.IsPrefix.trans ?_ ih
      simp only [moments, Field.momentsOfAll_append settles, Field.momentsOfAll, Nat.zero_add,
        List.append_assoc, List.cons_append, List.prefix_append_right_inj, List.cons_prefix_cons,
        true_and]
      exact List.prefix_append _ _
  | item _ visit validates ih =>
      rw [momentsOfChain_cons] at ih
      refine List.IsPrefix.trans ?_ ih
      simp only [moments, Validator.momentsOfItems_append validates, Validator.momentsOfItems,
        Nat.zero_add, List.append_assoc, List.cons_append, List.prefix_append_right_inj,
        List.cons_prefix_cons, true_and]
      exact List.prefix_append _ _
  | reference visit found ih =>
      rw [momentsOfChain_cons] at ih
      refine List.IsPrefix.trans ?_ ih
      simp only [moments, momentsWithin, found, List.append_assoc, List.cons_append,
        List.nil_append, List.prefix_append_right_inj, List.cons_prefix_cons, true_and]
      exact List.prefix_append _ _
  | definition visit found ih =>
      rw [momentsOfChain_cons] at ih
      refine List.IsPrefix.trans ?_ ih
      simp only [moments, momentsWithin, found, List.append_assoc, List.cons_append,
        List.nil_append, List.prefix_append_right_inj, List.cons_prefix_cons, true_and]
      exact List.prefix_append _ _

/-- **A moment of a run after some others**: the beginning of a visited step, or the end of a field
of a visited object whose fields before it are settled. -/
inductive Visited (bodies : List (List Step)) (bindings : Bindings) (budget : Nat)
    (root : List Step) (value : Json) (known : Meta) : (before : List Moment) → Moment → Prop
  | begun {left : Nat} {before : List Moment} {spot : Spot} {index : Nat} {step : Step}
      {rest : List Step} {given : Json} {now : Meta}
      (visit : Visits bodies bindings budget root value known left before spot index (step :: rest)
        given now) :
      Visited bodies bindings budget root value known before (.begun spot index step given now)
  | settled {left : Nat} {before earlier : List Moment} {spot : Spot} {index : Nat}
      {done later : List Field} {name : String} {chain : List Step} {publishes : Bool}
      {tag : Option ErrorTag} {rest : List Step} {members : Dictionary Json} {now : Meta}
      {outcome : Outcome (Dictionary Json)} {fieldOutcome : Outcome (Option Json)}
      (visit : Visits bodies bindings budget root value known left earlier spot index
        (.object (done ++ .mk name chain publishes :: later) tag :: rest) (.object members) now)
      (settles : Field.validateAll bindings (invokeWithin bodies bindings left) done members now =
        some outcome)
      (ends : Field.validate bindings (invokeWithin bodies bindings left)
        (.mk name chain publishes) ((Dictionary.find? name members).getD .null) outcome.known =
          some fieldOutcome) :
      Visited bodies bindings budget root value known before
        (.settled spot index done.length (.mk name chain publishes) fieldOutcome.result)

/-- What is visited in the bodies of schemas is visited when they are called with this budget
left. -/
def Told (bodies : List (List Step)) (bindings : Bindings) (budget : Nat) (root : List Step)
    (value : Json) (known : Meta) (left : Nat) : Prop :=
  ∀ handle spot before given now,
    (∀ fewer body, left = fewer + 1 → bodies[handle]? = some body →
      Visits bodies bindings budget root value known fewer before spot 0 body given now) →
    Moment.Each (Visited bodies bindings budget root value known) before
      (momentsWithin bodies bindings left handle spot given now)

theorem each_momentsOfItems {chain : List Step} {tag : Option ErrorTag} {rest : List Step}
    (chainVisited : ∀ {before : List Moment} {spot : Spot} {given : Json} {now : Meta},
      Visits bodies bindings budget root value known left before spot 0 chain given now →
      Moment.Each (Visited bodies bindings budget root value known) before
        (momentsOfChain bindings (invokeWithin bodies bindings left)
          (momentsWithin bodies bindings left) spot 0 chain given now))
    (later : List Json) : ∀ (done : List Json) {outcome : Outcome (List Json)},
    Visits bodies bindings budget root value known left before spot index
      (.array chain tag :: rest) (.array (done ++ later)) now →
    (validateChain bindings (invokeWithin bodies bindings left) chain).validateItems 0 done now =
      some outcome →
    Moment.Each (Visited bodies bindings budget root value known)
      (before ++ .begun spot index (.array chain tag) (.array (done ++ later)) now ::
        (validateChain bindings (invokeWithin bodies bindings left) chain).momentsOfItems
          (fun position => momentsOfChain bindings (invokeWithin bodies bindings left)
            (momentsWithin bodies bindings left) (⟨index, .item position⟩ :: spot) 0 chain)
          0 done now)
      ((validateChain bindings (invokeWithin bodies bindings left) chain).momentsOfItems
        (fun position => momentsOfChain bindings (invokeWithin bodies bindings left)
          (momentsWithin bodies bindings left) (⟨index, .item position⟩ :: spot) 0 chain)
        done.length later outcome.known) := by
  induction later with
  | nil => exact fun _ _ _ _ => trivial
  | cons item later ih =>
      intro done outcome visit validates
      rw [Validator.momentsOfItems]
      refine Moment.each_append.mpr ⟨chainVisited (.item done visit validates), ?_⟩
      cases ends : Validator.within (.index done.length)
          (validateChain bindings (invokeWithin bodies bindings left) chain) item outcome.known with
      | none => trivial
      | some itemOutcome =>
          have one :
              (validateChain bindings (invokeWithin bodies bindings left) chain).validateItems
              (0 + done.length) [item] outcome.known =
                some ⟨[itemOutcome.result.getD .null], itemOutcome.events ++ [],
                  itemOutcome.known⟩ := by
            rw [Nat.zero_add]
            exact Run.bind_eq_some.mpr ⟨itemOutcome, ends, _, rfl, rfl⟩
          obtain ⟨next, nextEnds, same⟩ := Validator.validateItems_append _ validates one
          have step := ih (done ++ [item]) (by simpa using visit) nextEnds
          rw [Validator.momentsOfItems_append validates, same] at step
          simpa [Validator.momentsOfItems, ends] using step

mutual

/-- The moments inside a visited step are moments of the run. -/
theorem each_moments (told : Told bodies bindings budget root value known left) :
    (step : Step) → ∀ (before : List Moment) (spot : Spot) (index : Nat) (rest : List Step)
      (given : Json) (now : Meta),
      Visits bodies bindings budget root value known left before spot index (step :: rest) given
        now →
      Moment.Each (Visited bodies bindings budget root value known) before
        (step.moments bindings (invokeWithin bodies bindings left)
          (momentsWithin bodies bindings left) spot index given now)
  | .object fields tag => by
      intro before spot index rest given now visit
      refine ⟨.begun visit, ?_⟩
      cases given with
      | object members => exact Field.each_momentsOfAll told fields [] _ _ _ _ _ _ _ _ visit rfl
      | _ => trivial
  | .array chain tag => by
      intro before spot index rest given now visit
      refine ⟨.begun visit, ?_⟩
      cases given with
      | array items =>
          exact each_momentsOfItems (each_momentsOfChain told chain _ _ _ _ _) items [] visit rfl
      | _ => trivial
  | .call handle => by
      intro before spot index rest given now visit
      refine ⟨.begun visit, told _ _ _ _ _ ?_⟩
      rintro fewer body rfl found
      exact .reference visit found
  | .define handle chain => by
      intro before spot index rest given now visit
      refine ⟨.begun visit, told _ _ _ _ _ ?_⟩
      rintro fewer body rfl found
      exact .definition visit found
  | .primitive _ _ | .equality _ _ _ | .membership _ _ | .matching _ _ _ | .comparison _ _ _
  | .lengthComparison _ _ _ => fun _ _ _ _ _ _ visit => ⟨.begun visit, trivial⟩

/-- The moments inside a visited chain are moments of the run. -/
theorem each_momentsOfChain (told : Told bodies bindings budget root value known left) :
    (chain : List Step) → ∀ (before : List Moment) (spot : Spot) (index : Nat) (given : Json)
      (now : Meta),
      Visits bodies bindings budget root value known left before spot index chain given now →
      Moment.Each (Visited bodies bindings budget root value known) before
        (momentsOfChain bindings (invokeWithin bodies bindings left)
          (momentsWithin bodies bindings left) spot index chain given now)
  | [] => fun _ _ _ _ _ _ => trivial
  | step :: rest => by
      intro before spot index given now visit
      rw [momentsOfChain_cons]
      refine Moment.each_append.mpr ⟨each_moments told step _ _ _ _ _ _ visit, ?_⟩
      split
      · rename_i next events after passes
        exact each_momentsOfChain told rest _ _ _ _ _ (.next visit passes)
      · trivial

/-- The moments inside the fields of a visited object are moments of the run. -/
theorem Field.each_momentsOfAll (told : Told bodies bindings budget root value known left) :
    (later : List Field) → ∀ (done : List Field) (before : List Moment) (spot : Spot) (index : Nat)
      (tag : Option ErrorTag) (rest : List Step) (members : Dictionary Json) (now : Meta)
      (outcome : Outcome (Dictionary Json)),
      Visits bodies bindings budget root value known left before spot index
        (.object (done ++ later) tag :: rest) (.object members) now →
      Field.validateAll bindings (invokeWithin bodies bindings left) done members now =
        some outcome →
      Moment.Each (Visited bodies bindings budget root value known)
        (before ++ .begun spot index (.object (done ++ later) tag) (.object members) now ::
          Field.momentsOfAll bindings (invokeWithin bodies bindings left)
            (momentsWithin bodies bindings left) spot index 0 done members now)
        (Field.momentsOfAll bindings (invokeWithin bodies bindings left)
          (momentsWithin bodies bindings left) spot index done.length later members outcome.known)
  | [] => fun _ _ _ _ _ _ _ _ _ _ _ => trivial
  | .mk name chain publishes :: later => by
      intro done before spot index tag rest members now outcome visit settles
      rw [Field.momentsOfAll]
      refine Moment.each_append.mpr
        ⟨each_momentsOfChain told chain _ _ _ _ _ (.field done visit settles), ?_⟩
      cases ends : Field.validate bindings (invokeWithin bodies bindings left)
          (.mk name chain publishes) ((Dictionary.find? name members).getD .null)
          outcome.known with
      | none => trivial
      | some fieldOutcome =>
          refine ⟨.settled visit settles ends, ?_⟩
          have one : Field.validateAll bindings (invokeWithin bodies bindings left)
              [.mk name chain publishes] members outcome.known =
                some ⟨_, fieldOutcome.events ++ [], fieldOutcome.known⟩ :=
            Run.bind_eq_some.mpr ⟨fieldOutcome, ends, _, rfl, rfl⟩
          obtain ⟨next, nextEnds, same⟩ := Field.validateAll_append _ settles one
          have step :=
            Field.each_momentsOfAll told later (done ++ [Field.mk name chain publishes]) before
            spot index tag rest members now next (by simpa using visit) nextEnds
          rw [Field.momentsOfAll_append settles, same] at step
          simpa [Field.momentsOfAll, ends] using step

end

theorem told (left : Nat) : Told bodies bindings budget root value known left := by
  induction left with
  | zero => exact fun _ _ _ _ _ _ => trivial
  | succ left ih =>
      intro handle spot before given now visits
      rw [momentsWithin]
      cases found : bodies[handle]? with
      | none => trivial
      | some body => exact each_momentsOfChain ih body _ _ _ _ _ (visits left body rfl found)

/-- **Every moment of a run is one that its visits make.** -/
theorem visited_of_moments {before later : List Moment} {moment : Moment}
    (run : momentsOfChain bindings (invokeWithin bodies bindings budget)
        (momentsWithin bodies bindings budget) [] 0 root value known =
      before ++ moment :: later) :
    Visited bodies bindings budget root value known before moment := by
  have start : Visits bodies bindings budget root value known budget [] [] 0 root value known :=
    .root
  have each := each_momentsOfChain (told budget) root _ _ _ _ _ start
  rw [run] at each
  exact Moment.each_split each

/-- **The visits of a run are the beginnings among its moments.** -/
theorem begun_iff_visits {before : List Moment} {step : Step} :
    (∃ later, momentsOfChain bindings (invokeWithin bodies bindings budget)
        (momentsWithin bodies bindings budget) [] 0 root value known =
      before ++ Moment.begun spot index step given now :: later) ↔
    ∃ left rest, Visits bodies bindings budget root value known left before spot index
      (step :: rest) given now := by
  constructor
  · rintro ⟨later, whole⟩
    cases visited_of_moments whole with
    | begun visit => exact ⟨_, _, visit⟩
  · rintro ⟨left, rest, visit⟩
    obtain ⟨after, whole⟩ := visit.moments_isPrefix
    obtain ⟨inside, begins⟩ : ∃ inside, step.moments bindings (invokeWithin bodies bindings left)
        (momentsWithin bodies bindings left) spot index given now =
          .begun spot index step given now :: inside := moments_eq_cons step given now
    rw [momentsOfChain_cons, begins] at whole
    exact ⟨_, by rw [← whole]; simp only [List.append_assoc, List.cons_append]; rfl⟩

/-- A step is begun in a run exactly if it is visited. -/
theorem begun_mem_iff_visits {step : Step} :
    .begun spot index step given now ∈ momentsOfChain bindings (invokeWithin bodies bindings budget)
        (momentsWithin bodies bindings budget) [] 0 root value known ↔
      ∃ left before rest, Visits bodies bindings budget root value known left before spot index
        (step :: rest) given now := by
  constructor
  · intro member
    obtain ⟨before, later, whole⟩ := List.append_of_mem member
    obtain ⟨left, rest, visit⟩ := begun_iff_visits.mp ⟨later, whole⟩
    exact ⟨left, before, rest, visit⟩
  · rintro ⟨left, before, rest, visit⟩
    obtain ⟨later, whole⟩ := begun_iff_visits.mpr ⟨left, rest, visit⟩
    rw [whole]
    exact List.mem_append_right _ List.mem_cons_self

/-- A field is settled in a visited object, after the fields before it. -/
theorem settled_mem_visits {position : Nat} {field : Field} {result : Option Json}
    (settled : .settled spot index position field result ∈
      momentsOfChain bindings (invokeWithin bodies bindings budget)
        (momentsWithin bodies bindings budget) [] 0 root value known) :
    ∃ left before done later tag rest members now outcome fieldOutcome,
      Visits bodies bindings budget root value known left before spot index
        (.object (done ++ field :: later) tag :: rest) (.object members) now ∧
      done.length = position ∧
      Field.validateAll bindings (invokeWithin bodies bindings left) done members now =
        some outcome ∧
      field.validate bindings (invokeWithin bodies bindings left)
        ((Dictionary.find? field.name members).getD .null) outcome.known = some fieldOutcome ∧
      fieldOutcome.result = result := by
  obtain ⟨before, later, whole⟩ := List.append_of_mem settled
  have made := visited_of_moments whole
  generalize here : Moment.settled spot index position field result = moment at made
  cases made with
  | begun _ => cases here
  | settled visit settles ends =>
      injection here with spots indexes lengths fields results
      subst spots indexes fields
      exact ⟨_, _, _, _, _, _, _, _, _, _, visit, lengths.symm, settles, ends, results.symm⟩

/-! ### One visit at a place -/

/-- **A run comes to a step of a spot at most once.** -/
theorem Visits.unique {left' : Nat} {before' : List Moment} {chain' : List Step} {given' : Json}
    {now' : Meta}
    (visit : Visits bodies bindings budget root value known left before spot index chain given now)
    (visit' : Visits bodies bindings budget root value known left' before' spot index chain' given'
      now') :
    left' = left ∧ before' = before ∧ chain' = chain ∧ given' = given ∧ now' = now := by
  induction visit generalizing left' before' chain' given' now' with
  | root =>
      cases visit'
      exact ⟨rfl, rfl, rfl, rfl, rfl⟩
  | next visit passes ih =>
      cases visit' with
      | next visit' passes' =>
          obtain ⟨rfl, rfl, same, rfl, rfl⟩ := ih visit'
          cases same
          cases passes.symm.trans passes'
          exact ⟨rfl, rfl, rfl, rfl, rfl⟩
  | @field _ _ spot index done later name chain publishes tag rest members now outcome visit
    settles ih =>
      generalize here : (⟨index, .field done.length⟩ :: spot : Spot) = place at visit'
      generalize start : 0 = position at visit'
      cases visit' with
      | field _ visit' settles' =>
          injection here with frame spots
          injection frame with indexes turns
          injection turns with lengths
          subst spots indexes
          obtain ⟨rfl, rfl, steps, values, rfl⟩ := ih visit'
          injection steps with steps rests
          injection steps with fields tags
          obtain ⟨rfl, others⟩ := List.append_inj fields lengths.symm
          cases others
          cases tags
          cases rests
          cases values
          cases settles.symm.trans settles'
          exact ⟨rfl, rfl, rfl, rfl, rfl⟩
      | next => cases start
      | _ => cases here
  | @item _ _ spot index chain tag rest done given later now outcome visit validates ih =>
      generalize here : (⟨index, .item done.length⟩ :: spot : Spot) = place at visit'
      generalize start : 0 = position at visit'
      cases visit' with
      | item _ visit' validates' =>
          injection here with frame spots
          injection frame with indexes turns
          injection turns with lengths
          subst spots indexes
          obtain ⟨rfl, rfl, steps, values, rfl⟩ := ih visit'
          cases steps
          injection values with items
          obtain ⟨rfl, others⟩ := List.append_inj items lengths.symm
          cases others
          cases validates.symm.trans validates'
          exact ⟨rfl, rfl, rfl, rfl, rfl⟩
      | next => cases start
      | _ => cases here
  | reference visit found ih =>
      cases visit' with
      | reference visit' found' =>
          obtain ⟨same, rfl, steps, rfl, rfl⟩ := ih visit'
          cases same
          cases found.symm.trans found'
          exact ⟨rfl, rfl, rfl, rfl, rfl⟩
  | definition visit found ih =>
      cases visit' with
      | definition visit' found' =>
          obtain ⟨same, rfl, steps, rfl, rfl⟩ := ih visit'
          cases same
          cases steps
          cases found.symm.trans found'
          exact ⟨rfl, rfl, rfl, rfl, rfl⟩

/-- **A field of an object that a run comes to is settled at most once.** -/
theorem settled_unique {position : Nat} {field field' : Field} {result result' : Option Json}
    (settled : .settled spot index position field result ∈
      momentsOfChain bindings (invokeWithin bodies bindings budget)
        (momentsWithin bodies bindings budget) [] 0 root value known)
    (settled' : .settled spot index position field' result' ∈
      momentsOfChain bindings (invokeWithin bodies bindings budget)
        (momentsWithin bodies bindings budget) [] 0 root value known) :
    field' = field ∧ result' = result := by
  obtain ⟨left, before, done, later, tag, rest, members, now, outcome, fieldOutcome, visit,
    length, settles, ends, rfl⟩ := settled_mem_visits settled
  obtain ⟨left', before', done', later', tag', rest', members', now', outcome',
    fieldOutcome', visit', length', settles', ends', rfl⟩ := settled_mem_visits settled'
  obtain ⟨rfl, -, steps, values, rfl⟩ := visit.unique visit'
  injection steps with steps rests
  injection steps with sameFields tags
  obtain ⟨rfl, others⟩ := List.append_inj sameFields (length'.trans length.symm)
  cases others
  cases values
  cases settles.symm.trans settles'
  cases ends.symm.trans ends'
  exact ⟨rfl, rfl⟩

end Prefix

end Step

end Schemata
