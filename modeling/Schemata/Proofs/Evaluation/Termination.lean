/-
**When runs end.**

A call of a named schema goes on with the value that is current, so a run can only go on without end
by calls with no container between them: inside an object or an array the values are less deep, and
along a chain they never become deeper.

* `Template.validate_isSome_iff_root`: suffixes change nothing about whether a run ends;
* `Step.endsWith`: if the calls at one place are bounded, a budget in proportion to the depth of the
  value is enough;
* `Step.CallsHere` relates a schema to those that it calls outside of containers, and
  `Step.Visits.callPath` says that the calls at one place are a path of this relation;
* `Template.ends_iff_callsBounded`: a run ends exactly if the calls at one place are bounded, and so
  it does if no schema reaches itself in this way.
-/

import Mathlib
import Schemata.Compilation.Compile
import Schemata.Proofs.Evaluation.Depth
import Schemata.Proofs.Evaluation.Failure
import Schemata.Proofs.Evaluation.Visit

namespace Schemata

/-! ### Outcomes -/

/-- A run has an outcome from some metadata. -/
def Run.Ends {α : Type} (run : Run α) (known : Meta) : Prop :=
  ∃ outcome, run known = some outcome

namespace Run

variable {α β : Type} {known : Meta}

theorem pure_ends (result : α) : Ends (pure result) known := ⟨_, rfl⟩

theorem Ends.bind {first : Run α} {next : α → Run β} (firstEnds : first.Ends known)
    (nextEnds : ∀ done, first known = some done → (next done.result).Ends done.known) :
    (first >>= next).Ends known := by
  obtain ⟨done, doneEnds⟩ := firstEnds
  obtain ⟨last, lastEnds⟩ := nextEnds done doneEnds
  exact ⟨_, bind_eq_some.mpr ⟨done, doneEnds, last, lastEnds, rfl⟩⟩

theorem Ends.map {run : Run α} (change : α → β) (ends : run.Ends known) :
    (change <$> run).Ends known := by
  obtain ⟨done, doneEnds⟩ := ends
  exact ⟨_, map_eq_some.mpr ⟨done, doneEnds, rfl⟩⟩

theorem Ends.within {segment : Segment} {run : Run α} (ends : run.Ends (known.enter segment)) :
    (within segment run).Ends known := by
  obtain ⟨done, doneEnds⟩ := ends
  exact ⟨_, within_eq_some.mpr ⟨done, doneEnds, rfl⟩⟩

end Run

/-- A check that fails ends. -/
theorem ErrorTag.fail_ends (bindings : Bindings) (tag : Option ErrorTag) (name : String)
    (params : List Json) (known : Meta) : (fail bindings tag name params).Ends known := by
  cases tag <;> exact ⟨_, rfl⟩

/-- A check ends. -/
theorem Step.check_ends {step : Step} (check : step.isCheck) (bindings : Bindings)
    (call : Nat → Validator) (value : Json) (known : Meta) :
    (step.validate bindings call value).Ends known := by
  cases own : step.failure? bindings value known with
  | none =>
      obtain ⟨result, passed⟩ := exists_passed check bindings call value
      exact ⟨_, passed known own⟩
  | some failure =>
      unfold Run.Ends
      rw [validate_of_failure? own]
      exact ErrorTag.fail_ends _ _ _ _ known

/-- A field ends where its chain does. -/
theorem Field.validate_ends {bindings : Bindings} {call : Nat → Validator} {name : String}
    {chain : List Step} {value : Json} {known : Meta} (publishes : Bool)
    (chainEnds : (Step.validateChain bindings call chain value).Ends (known.enter (.key name))) :
    (Field.validate bindings call (.mk name chain publishes) value).Ends known := by
  cases publishes with
  | false => exact chainEnds.within
  | true =>
      refine Run.Ends.within (chainEnds.bind fun first _ => ?_)
      cases first.result <;> exact ⟨_, rfl⟩

/-! ### Suffixes -/

/-- A combinator ends where the validator does that it is put around. -/
theorem Suffix.combinator_isSome (suffix : Suffix) (bindings : Bindings) (inner : Validator)
    (value : Json) (known : Meta) :
    (suffix.combinator bindings inner value known).isSome =
      (inner value (suffix.start known)).isSome := by
  cases suffix with
  | collecting processor => rw [combinator, Validator.collecting_apply, Option.isSome_map, start]
  | apart => rw [combinator, Validator.apart_apply, Option.isSome_map, start]

/-- **A run of a template ends exactly if the chain of the whole schema does.** -/
theorem Template.validate_isSome_iff_root (template : Template) (bindings : Bindings) (value : Json)
    (known : Meta) :
    (template.validate bindings value known).isSome ↔
      (Step.validateChain bindings (Step.invoke template.bodies bindings) template.root value
        (template.start known)).isSome := by
  rw [validate_eq_foldl, start]
  generalize Step.validateChain bindings (Step.invoke template.bodies bindings)
    template.root = inner
  induction template.suffixes generalizing inner with
  | nil => exact Iff.rfl
  | cons suffix rest ih =>
      rw [List.foldl_cons, List.foldr_cons, ih, suffix.combinator_isSome]

namespace Step

variable {bodies : List (List Step)} {bindings : Bindings} {budget : Nat} {root : List Step}
  {value : Json} {known : Meta} {left : Nat} {before : List Moment} {spot : Spot} {index : Nat}
  {chain : List Step} {given : Json} {now : Meta}

/-! ### Active calls -/

/-- The calls that are active have been taken from the budget. -/
theorem Visits.callCount_add_left
    (visit : Visits bodies bindings budget root value known left before spot index chain
      given now) :
    spot.callCount + left = budget := by
  induction visit with
  | root => exact Nat.zero_add _
  | next _ _ ih => exact ih
  | field _ _ _ ih => simpa [Spot.callCount, Turn.handle?] using ih
  | item _ _ _ ih => simpa [Spot.callCount, Turn.handle?] using ih
  | reference _ _ ih =>
      rw [← ih]
      simp [Spot.callCount, Turn.handle?]
      omega
  | definition _ _ ih =>
      rw [← ih]
      simp [Spot.callCount, Turn.handle?]
      omega

theorem callsHere_length_le_callCount (spot : Spot) :
    spot.callsHere.length ≤ spot.callCount := by
  induction spot with
  | nil => exact Nat.le_refl 0
  | cons frame outer ih =>
      rw [Spot.callsHere, Spot.callCount, List.countP_cons]
      split
      · rename_i called
        simp only [called, Option.isSome_some, if_true, List.length_cons]
        exact Nat.succ_le_succ ih
      · exact Nat.zero_le _

/-! ### Enough budget -/

/-- The handle that a step calls on its own value. -/
def calledHere? : Step → Option Nat
  | .call handle | .define handle _ => some handle
  | _ => none

/-- **Wherever a run begins a step, at most this many calls are active at one place**, with the one
that the step makes. -/
structure CallsBounded (bodies : List (List Step)) (bindings : Bindings) (budget : Nat)
    (root : List Step) (value : Json) (known : Meta) (limit : Nat) : Prop where
  active : ∀ {spot index step given now},
    .begun spot index step given now ∈ momentsOfChain bindings (invokeWithin bodies bindings budget)
      (momentsWithin bodies bindings budget) [] 0 root value known →
    spot.callsHere.length ≤ limit
  room : ∀ {spot index step given now handle},
    .begun spot index step given now ∈ momentsOfChain bindings (invokeWithin bodies bindings budget)
      (momentsWithin bodies bindings budget) [] 0 root value known →
    step.calledHere? = some handle → spot.callsHere.length < limit

/-- A visited step is begun. -/
theorem Visits.begun_mem {step : Step} {rest : List Step}
    (visit : Visits bodies bindings budget root value known left before spot index (step :: rest)
      given now) :
    .begun spot index step given now ∈ momentsOfChain bindings (invokeWithin bodies bindings budget)
      (momentsWithin bodies bindings budget) [] 0 root value known :=
  begun_mem_iff_visits.mpr ⟨left, before, rest, visit⟩

/-- A budget is enough for a value of some depth: at each level of the value the calls at one place
may use up the limit. -/
def Enough (limit depth left calls : Nat) : Prop :=
  (depth + 1) * limit ≤ left + calls

theorem Enough.inside {limit depth inner calls : Nat} (enough : Enough limit depth left calls)
    (bounded : calls ≤ limit) (less : inner < depth) : Enough limit inner left 0 := by
  have product : (inner + 1) * limit ≤ depth * limit := Nat.mul_le_mul_right limit less
  unfold Enough at *
  rw [Nat.succ_mul] at enough
  omega

theorem Enough.shallower {limit depth inner calls : Nat} (enough : Enough limit depth left calls)
    (le : inner ≤ depth) : Enough limit inner left calls :=
  Nat.le_trans (Nat.mul_le_mul_right _ (Nat.succ_le_succ le)) enough

theorem Enough.pos {limit depth calls : Nat} (enough : Enough limit depth left calls)
    (room : calls < limit) : ∃ fewer, left = fewer + 1 ∧ Enough limit depth fewer (calls + 1) := by
  unfold Enough at *
  have level : limit ≤ (depth + 1) * limit := Nat.le_mul_of_pos_left limit (Nat.succ_pos depth)
  exact ⟨left - 1, by omega, by omega⟩

/-- Whatever a run visits with this budget left has an outcome, if the budget is enough. -/
def EndsWith (bodies : List (List Step)) (bindings : Bindings) (budget : Nat) (root : List Step)
    (value : Json) (known : Meta) (limit left : Nat) : Prop :=
  ∀ before spot index chain given now,
    Visits bodies bindings budget root value known left before spot index chain given now →
    Enough limit given.depth left spot.callsHere.length →
    (validateChain bindings (invokeWithin bodies bindings left) chain given).Ends now

section Ends

variable {limit : Nat}

theorem validateItems_ends (bounded : CallsBounded bodies bindings budget root value known limit)
    {tag : Option ErrorTag} {rest : List Step}
    (chainEnds : ∀ before spot given now,
      Visits bodies bindings budget root value known left before spot 0 chain given now →
      Enough limit given.depth left spot.callsHere.length →
      (validateChain bindings (invokeWithin bodies bindings left) chain given).Ends now)
    (later : List Json) : ∀ (done : List Json) (outcome : Outcome (List Json)),
    Visits bodies bindings budget root value known left before spot index
      (.array chain tag :: rest) (.array (done ++ later)) now →
    Enough limit (Json.array (done ++ later)).depth left spot.callsHere.length →
    (validateChain bindings (invokeWithin bodies bindings left) chain).validateItems 0 done now =
      some outcome →
    ((validateChain bindings (invokeWithin bodies bindings left) chain).validateItems
      done.length later).Ends outcome.known := by
  induction later with
  | nil => exact fun _ _ _ _ _ => Run.pure_ends _
  | cons item later ih =>
      intro done outcome visit enough validates
      have here := bounded.active visit.begun_mem
      refine Run.Ends.bind (Run.Ends.within (chainEnds _ _ _ _ (.item _ visit validates)
        (enough.inside here (Json.depth_item_lt done later item)))) fun inner innerEnds => ?_
      obtain ⟨next, nextEnds, same⟩ := Validator.validateItems_append [item] validates
        (Run.bind_eq_some.mpr ⟨inner, by rw [Nat.zero_add]; exact innerEnds, _, rfl, rfl⟩)
      have restEnds :=
        ih (done ++ [item]) next (by simpa using visit) (by simpa using enough) nextEnds
      rw [List.length_append, same] at restEnds
      exact restEnds.map _

mutual

/-- A visited step has an outcome, if those that it calls have. -/
theorem validate_ends
    (bounded : CallsBounded bodies bindings budget root value known limit)
    (called : ∀ fewer, left = fewer + 1 →
      EndsWith bodies bindings budget root value known limit fewer) :
    (step : Step) → ∀ (before : List Moment) (spot : Spot) (index : Nat) (rest : List Step)
      (given : Json) (now : Meta),
      Visits bodies bindings budget root value known left before spot index (step :: rest) given
        now →
      Enough limit given.depth left spot.callsHere.length →
      (step.validate bindings (invokeWithin bodies bindings left) given).Ends now
  | .object fields tag => by
      intro before spot index rest given now visit enough
      cases given with
      | object members =>
          have fieldsEnd :=
            Field.validateAll_ends bounded called fields [] _ _ _ _ _ _ _ _ visit enough rfl
          simp only [validate]
          split
          · exact Run.pure_ends _
          · exact fieldsEnd.map _
      | _ => exact ErrorTag.fail_ends _ _ _ _ _
  | .array chain tag => by
      intro before spot index rest given now visit enough
      cases given with
      | array items =>
          have itemsEnd := validateItems_ends bounded
            (fun _ _ _ _ => validateChain_ends bounded called chain _ _ _ _ _) items
            [] _ visit enough rfl
          exact itemsEnd.map _
      | _ => exact ErrorTag.fail_ends _ _ _ _ _
  | .call handle => by
      intro before spot index rest given now visit enough
      obtain ⟨fewer, rfl, less⟩ := enough.pos (bounded.room visit.begun_mem rfl)
      simp only [validate, invokeWithin]
      cases found : bodies[handle]? with
      | none => exact Run.pure_ends _
      | some body => exact called fewer rfl _ _ _ _ _ _ (.reference visit found) less
  | .define handle chain => by
      intro before spot index rest given now visit enough
      obtain ⟨fewer, rfl, less⟩ := enough.pos (bounded.room visit.begun_mem rfl)
      simp only [validate, invokeWithin]
      cases found : bodies[handle]? with
      | none => exact Run.pure_ends _
      | some body => exact called fewer rfl _ _ _ _ _ _ (.definition visit found) less
  | .primitive _ _ | .equality _ _ _ | .membership _ _ | .matching _ _ _ | .comparison _ _ _
  | .lengthComparison _ _ _ => fun _ _ _ _ _ _ _ _ => check_ends rfl _ _ _ _

/-- A visited chain has an outcome, if the schemas that it calls have. -/
theorem validateChain_ends
    (bounded : CallsBounded bodies bindings budget root value known limit)
    (called : ∀ fewer, left = fewer + 1 →
      EndsWith bodies bindings budget root value known limit fewer) :
    (chain : List Step) → ∀ (before : List Moment) (spot : Spot) (index : Nat) (given : Json)
      (now : Meta),
      Visits bodies bindings budget root value known left before spot index chain given now →
      Enough limit given.depth left spot.callsHere.length →
      (validateChain bindings (invokeWithin bodies bindings left) chain given).Ends now
  | [] => fun _ _ _ _ _ _ _ => Run.pure_ends _
  | step :: rest => by
      intro before spot index given now visit enough
      refine Run.Ends.bind
        (validate_ends bounded called step _ _ _ _ _ _ visit enough)
        fun first firstEnds => ?_
      obtain ⟨result, events, after⟩ := first
      cases result with
      | none => exact Run.pure_ends _
      | some next =>
          have le := validate_shallow (invokeWithin_shallow left) step given _ _ _ firstEnds rfl
          exact validateChain_ends bounded called rest _ _ _ _ _ (.next visit firstEnds)
            (enough.shallower le)

/-- The fields of a visited object have an outcome, if the schemas that they call have. -/
theorem Field.validateAll_ends
    (bounded : CallsBounded bodies bindings budget root value known limit)
    (called : ∀ fewer, left = fewer + 1 →
      EndsWith bodies bindings budget root value known limit fewer) :
    (later : List Field) → ∀ (done : List Field) (before : List Moment) (spot : Spot) (index : Nat)
      (tag : Option ErrorTag) (rest : List Step) (members : Dictionary Json) (now : Meta)
      (outcome : Outcome (Dictionary Json)),
      Visits bodies bindings budget root value known left before spot index
        (.object (done ++ later) tag :: rest) (.object members) now →
      Enough limit (Json.object members).depth left spot.callsHere.length →
      Field.validateAll bindings (invokeWithin bodies bindings left) done members now =
        some outcome →
      (Field.validateAll bindings (invokeWithin bodies bindings left) later members).Ends
        outcome.known
  | [] => fun _ _ _ _ _ _ _ _ _ _ _ _ => Run.pure_ends _
  | .mk name chain publishes :: later => by
      intro done before spot index tag rest members now outcome visit enough settles
      have here := bounded.active visit.begun_mem
      have chainEnds := validateChain_ends bounded called chain _ _ _ _ _ (.field _ visit settles)
        (enough.inside here (Json.depth_find?_lt name members))
      refine (Field.validate_ends publishes chainEnds).bind fun first firstEnds => ?_
      obtain ⟨next, nextEnds, same⟩ := Field.validateAll_append [.mk name chain publishes] settles
        (Run.bind_eq_some.mpr ⟨first, firstEnds, _, rfl, rfl⟩)
      have restEnds :=
        Field.validateAll_ends bounded called later (done ++ [Field.mk name chain publishes])
        before spot index tag rest members now next (by simpa using visit) enough nextEnds
      rw [same] at restEnds
      exact restEnds.map _

end

/-- **With enough budget whatever a run visits has an outcome.** -/
theorem endsWith (bounded : CallsBounded bodies bindings budget root value known limit)
    (left : Nat) : EndsWith bodies bindings budget root value known limit left := by
  induction left with
  | zero =>
      refine fun _ _ _ chain _ _ =>
        validateChain_ends bounded (fun fewer same => ?_) chain _ _ _ _ _
      cases same
  | succ left ih =>
      refine fun _ _ _ chain _ _ =>
        validateChain_ends bounded (fun fewer same => ?_) chain _ _ _ _ _
      cases same
      exact ih

/-- **A run ends within the budget of one limit for each level of its value**, and one more. -/
theorem validateChain_ends_of_callsBounded
    (bounded : CallsBounded bodies bindings ((value.depth + 1) * limit) root value known limit) :
    (validateChain bindings (invokeWithin bodies bindings ((value.depth + 1) * limit))
      root value).Ends known :=
  endsWith bounded _ _ _ _ _ _ _ .root
    (show Enough limit value.depth ((value.depth + 1) * limit) 0 from Nat.le_refl _)

end Ends

/-! ### Schemas that call one another outside of containers -/

/-- **A named schema calls another one on its own value**, by a step that stands in no container. -/
def CallsHere (bodies : List (List Step)) (caller called : Nat) : Prop :=
  ∃ body, bodies[caller]? = some body ∧ ∃ step ∈ body, step.calledHere? = some called

/-- Calls at one place, the last one first, of which the last has come to a chain. -/
structure CallPath (bodies : List (List Step)) (calls : List Nat) (chain : List Step) : Prop where
  /-- Each is made by the schema that was called before it. -/
  linked : calls.IsChain fun called caller => CallsHere bodies caller called
  /-- Each is of a schema that there is. -/
  named : ∀ handle ∈ calls, handle < bodies.length
  /-- The chain is a rest of the schema that was called last. -/
  inside : ∀ handle ∈ calls.head?, ∃ body, bodies[handle]? = some body ∧ chain <:+ body

namespace CallPath

variable {calls : List Nat} {step : Step} {rest : List Step}

theorem nil : CallPath bodies [] chain := ⟨.nil, nofun, nofun⟩

theorem tail (path : CallPath bodies calls (step :: rest)) : CallPath bodies calls rest where
  linked := path.linked
  named := path.named
  inside := fun handle last => by
    obtain ⟨body, found, suffix⟩ := path.inside handle last
    exact ⟨body, found, (List.suffix_cons _ _).trans suffix⟩

theorem call {handle : Nat} {body : List Step} (path : CallPath bodies calls (step :: rest))
    (calling : step.calledHere? = some handle) (found : bodies[handle]? = some body) :
    CallPath bodies (handle :: calls) body where
  linked := by
    refine List.isChain_cons.mpr ⟨fun caller last => ?_, path.linked⟩
    obtain ⟨callerBody, callerFound, suffix⟩ := path.inside caller last
    exact ⟨callerBody, callerFound, step, suffix.subset List.mem_cons_self, calling⟩
  named := List.forall_mem_cons.mpr ⟨(List.getElem?_eq_some_iff.mp found).1, path.named⟩
  inside := fun other same => by
    cases same
    exact ⟨body, found, List.suffix_rfl⟩

end CallPath

/-- **The calls at one place are a path** to the chain that is visited. -/
theorem Visits.callPath
    (visit : Visits bodies bindings budget root value known left before spot index chain
      given now) :
    CallPath bodies spot.callsHere chain := by
  induction visit with
  | root => exact .nil
  | next _ _ ih => exact ih.tail
  | field _ _ _ _ => exact .nil
  | item _ _ _ _ => exact .nil
  | reference _ found ih => exact ih.call rfl found
  | definition _ found ih => exact ih.call rfl found

/-- **If no schema reaches itself outside of containers, a path is of different schemas.** -/
theorem CallPath.length_le {calls : List Nat}
    (grounded : ∀ handle, ¬ Relation.TransGen (CallsHere bodies) handle handle)
    (path : CallPath bodies calls chain) : calls.length ≤ bodies.length := by
  have reaches : calls.IsChain (Function.swap (Relation.TransGen (CallsHere bodies))) :=
    path.linked.imp fun _ _ calls => .single calls
  have distinct : calls.Nodup := by
    refine reaches.pairwise.imp fun {called caller} path same => ?_
    subst same
    exact grounded called path
  have within : calls ⊆ List.range bodies.length :=
    fun handle member => List.mem_range.mpr (path.named handle member)
  simpa using distinct.length_le_of_subset within

/-- So no more calls are active at one place than there are named schemas. -/
theorem Visits.callsHere_length_le
    (grounded : ∀ handle, ¬ Relation.TransGen (CallsHere bodies) handle handle)
    (visit : Visits bodies bindings budget root value known left before spot index chain
      given now) :
    spot.callsHere.length ≤ bodies.length :=
  visit.callPath.length_le grounded

/-- A schema that calls itself first has no outcome within any budget. -/
theorem invokeWithin_loop_eq_none (bindings : Bindings) (budget : Nat) (value : Json)
    (known : Meta) : invokeWithin [[.call 0]] bindings budget 0 value known = none := by
  induction budget with
  | zero => rfl
  | succ budget ih =>
      change ((invokeWithin [[.call 0]] bindings budget 0 value known).bind _) = none
      rw [ih]
      rfl

end Step

/-! ### Runs that end -/

namespace Template

/-- No schema reaches itself by calls that stand in no container. -/
def Grounded (template : Template) : Prop :=
  ∀ handle, ¬ Relation.TransGen (Step.CallsHere template.bodies) handle handle

/-- **The calls that are active at one place of a run are bounded**, however many calls it may
make. -/
def CallsBounded (template : Template) (bindings : Bindings) (value : Json) (known : Meta) : Prop :=
  ∃ limit, ∀ budget spot index step given now,
    .begun spot index step given now ∈ template.moments bindings budget value known →
    spot.callsHere.length ≤ limit

variable {template : Template} {bindings : Bindings} {value : Json} {known : Meta}

theorem validate_isSome_of_callsBounded (bounded : template.CallsBounded bindings value known) :
    (template.validate bindings value known).isSome := by
  obtain ⟨limit, bounded⟩ := bounded
  rw [validate_isSome_iff_root]
  have bounded : ∀ budget, Step.CallsBounded template.bodies bindings budget template.root value
      (template.start known) (limit + 1) := fun budget =>
    { active := fun begun => Nat.le_succ_of_le (bounded _ _ _ _ _ _ begun)
      room := fun begun _ => Nat.lt_succ_of_le (bounded _ _ _ _ _ _ begun) }
  obtain ⟨outcome, ends⟩ := Step.validateChain_ends_of_callsBounded (bounded _)
  exact Option.isSome_iff_exists.mpr ⟨outcome, Step.validateChain_eq_some_iff.mpr ⟨_, ends⟩⟩

/-- A run that ends within a budget never has more calls active at once, whatever its budget. -/
theorem callsBounded_of_validate_isSome (ends : (template.validate bindings value known).isSome) :
    template.CallsBounded bindings value known := by
  rw [validate_isSome_iff_root] at ends
  obtain ⟨outcome, ends⟩ := Option.isSome_iff_exists.mp ends
  obtain ⟨enough, ends⟩ := Step.validateChain_eq_some_iff.mp ends
  refine ⟨enough, fun budget spot index step given now begun => ?_⟩
  have counted : ∃ within ≤ enough, .begun spot index step given now ∈
      template.moments bindings within value known := by
    rcases Nat.le_total budget enough with le | le
    · exact ⟨budget, le, begun⟩
    · refine ⟨enough, Nat.le_refl _, ?_⟩
      rw [moments, Step.momentsOfChain_within_eq le ends]
      exact begun
  obtain ⟨within, le, begun⟩ := counted
  obtain ⟨left, before, rest, visit⟩ := Step.begun_mem_iff_visits.mp begun
  have count := visit.callCount_add_left
  have length := Step.callsHere_length_le_callCount spot
  omega

theorem Grounded.callsBounded (grounded : template.Grounded) :
    template.CallsBounded bindings value known := by
  refine ⟨template.bodies.length, fun budget spot index step given now begun => ?_⟩
  obtain ⟨left, before, rest, visit⟩ := Step.begun_mem_iff_visits.mp begun
  exact visit.callsHere_length_le grounded

/-- **A run ends exactly if the calls at one place are bounded**, and every run ends if no schema
reaches itself by calls that stand in no container. -/
theorem ends_iff_callsBounded (template : Template) (bindings : Bindings) (value : Json)
    (known : Meta) :
    ((template.validate bindings value known).isSome ↔
      template.CallsBounded bindings value known) ∧
    (template.Grounded → (template.validate bindings value known).isSome) :=
  ⟨⟨callsBounded_of_validate_isSome, validate_isSome_of_callsBounded⟩,
    fun grounded => validate_isSome_of_callsBounded grounded.callsBounded⟩

/-- A tree whose children stand in an object ends on every value. -/
theorem ends_of_grounded_tree :
    ∃ template, Template.ofText "#tree(@o(value: @n, children: @a(##tree)))" = .ok template ∧
      template.Grounded ∧
        ∀ bindings value known, (template.validate bindings value known).isSome := by
  let body : List Step :=
    [.object [.mk "value" [.primitive .number none] false,
      .mk "children" [.array [.call 0] none] false] none]
  have compiles : Template.ofText "#tree(@o(value: @n, children: @a(##tree)))" =
      .ok ⟨[.define 0 body], [body], []⟩ := by cbv
  have nowhere : ∀ caller called, ¬ Step.CallsHere [body] caller called := by
    rintro caller called ⟨chain, found, step, member, calls⟩
    cases caller with
    | zero =>
        cases found
        cases List.mem_singleton.mp member
        cases calls
    | succ _ => cases found
  have grounded : Template.Grounded ⟨[.define 0 body], [body], []⟩ := by
    intro handle path
    cases path with
    | single calls => exact nowhere _ _ calls
    | tail _ calls => exact nowhere _ _ calls
  exact ⟨_, compiles, grounded, fun bindings value known =>
    (ends_iff_callsBounded _ bindings value known).2 grounded⟩

/-- **A schema that calls itself on its own value never ends.** -/
theorem exists_validate_eq_none :
    ∃ template, Template.ofText "#a(##a)" = .ok template ∧
      ∀ bindings value known, template.validate bindings value known = none := by
  refine ⟨⟨[.define 0 [.call 0]], [[.call 0]], []⟩, by cbv, fun bindings value known => ?_⟩
  rw [← Option.not_isSome_iff_eq_none, validate_isSome_iff_root]
  intro ends
  obtain ⟨outcome, ends⟩ := Option.isSome_iff_exists.mp ends
  obtain ⟨budget, ends⟩ := Step.validateChain_eq_some_iff.mp ends
  obtain ⟨first, firstEnds, -⟩ := Run.bind_eq_some.mp ends
  have never := Step.invokeWithin_loop_eq_none bindings budget value known
  cases never.symm.trans firstEnds

end Template

end Schemata
