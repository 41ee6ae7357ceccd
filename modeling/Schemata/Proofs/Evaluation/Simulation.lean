/-
**Two chains that are evaluated alike.**

A `Run.Simulation` says what is compared of two runs beside their results: their metadata and their
reports. Runs that match are put together to runs that match, so chains of the same shape match if
their checks do, if their tags fail alike and if the schemas that they call match.

* `Step.Like` relates steps of the same shape; a `Step.Likeness` says which checks, tags and handles
  stand for one another, and in which orders the fields of an object may stand;
* `Step.ChainLike.matches`: like chains match, given validators for the handles that do;
* `Run.Simulation.invokeWithin_matches`: so do the invocations of named schemas whose bodies match,
  by induction on the budget of calls;
* `Run.Simulation.validateChain_invoke`: so do whole chains, wherever one of them ends;
* `Template.Alike.validate_matches`: and so do templates that are alike.
-/

import Mathlib.Data.Option.Basic
import Schemata.Proofs.Evaluation.Budget
import Schemata.Proofs.Template.Soundness

namespace Schemata

/-! ### Matching runs -/

/-- **What is compared of two runs**, beside their results. -/
structure Run.Simulation where
  known : Meta → Meta → Prop
  reports : List Event → List Event → Prop
  known_refl : ∀ first, known first first
  known_trans : ∀ {first second third}, known first second → known second third → known first third
  enter : ∀ {first second} segment, known first second →
    known (first.enter segment) (second.enter segment)
  leave : ∀ {first second}, known first second → known first.leave second.leave
  publish : ∀ {first second} name value, known first second →
    known (first.publish name value) (second.publish name value)
  reports_nil : reports [] []
  reports_append : ∀ {first second later further}, reports first second → reports later further →
    reports (first ++ later) (second ++ further)
  reports_trans : ∀ {first second third}, reports first second → reports second third →
    reports first third

namespace Run.Simulation

/-- Metadata are compared as they are, and reports by a relation. -/
def ofReports (reports : List Event → List Event → Prop) (nil : reports [] [])
    (append : ∀ {first second later further}, reports first second → reports later further →
      reports (first ++ later) (second ++ further))
    (trans : ∀ {first second third}, reports first second → reports second third →
      reports first third) : Run.Simulation where
  known := Eq
  reports := reports
  known_refl _ := rfl
  known_trans := Eq.trans
  enter segment same := congrArg (Meta.enter segment) same
  leave same := congrArg Meta.leave same
  publish name value same := congrArg (Meta.publish name value) same
  reports_nil := nil
  reports_append := append
  reports_trans := trans

variable (simulation : Run.Simulation) {α β : Type}

/-- Two outcomes with the same result. -/
structure Similar (first second : Outcome α) : Prop where
  result : first.result = second.result
  reports : simulation.reports first.events second.events
  known : simulation.known first.known second.known

/-- **Two runs match**: from metadata that do, both end in similar outcomes or none does. -/
def Matches (run other : Run α) : Prop :=
  ∀ first second, simulation.known first second →
    Option.Rel simulation.Similar (run first) (other second)

variable {simulation}

theorem matches_pure (result : α) : simulation.Matches (pure result) (pure result) :=
  fun _ _ same => .some ⟨rfl, simulation.reports_nil, same⟩

theorem matches_exhausted : simulation.Matches (exhausted : Run α) exhausted :=
  fun _ _ _ => .none

namespace Matches

/-- **One run after another.** -/
theorem bind {first other : Run α} {next further : α → Run β}
    (firstMatches : simulation.Matches first other)
    (nextMatches : ∀ result, simulation.Matches (next result) (further result)) :
    simulation.Matches (first >>= next) (other >>= further) := by
  intro known known' same
  show Option.Rel _ ((first known).bind _) ((other known').bind _)
  have done := firstMatches known known' same
  generalize first known = one, other known' = two at done
  cases done with
  | none => exact .none
  | @some one two similar =>
      show Option.Rel _ ((next one.result one.known).bind _) ((further two.result two.known).bind _)
      have last := nextMatches one.result _ _ similar.known
      rw [similar.result] at last ⊢
      generalize next two.result one.known = three, further two.result two.known = four at last
      cases last with
      | none => exact .none
      | some alike =>
          exact .some
            ⟨alike.result, simulation.reports_append similar.reports alike.reports, alike.known⟩

theorem map {change : α → β} {run other : Run α} (runMatches : simulation.Matches run other) :
    simulation.Matches (change <$> run) (change <$> other) := by
  rw [map_eq_pure_bind, map_eq_pure_bind]
  exact runMatches.bind fun result => matches_pure (change result)

theorem within {run other : Run α} (segment : Segment) (runMatches : simulation.Matches run other) :
    simulation.Matches (Run.within segment run) (Run.within segment other) := by
  intro known known' same
  show Option.Rel _ ((run (known.enter segment)).bind _) ((other (known'.enter segment)).bind _)
  have done := runMatches _ _ (simulation.enter segment same)
  generalize run (known.enter segment) = one, other (known'.enter segment) = two at done
  cases done with
  | none => exact .none
  | some similar => exact .some ⟨similar.result, similar.reports, simulation.leave similar.known⟩

/-- Runs with metadata of their own. -/
theorem apart {run other : Run α} (runMatches : simulation.Matches run other) :
    simulation.Matches (Run.apart run) (Run.apart other) := by
  intro known known' same
  show Option.Rel _ ((run .empty).bind _) ((other .empty).bind _)
  have done := runMatches _ _ (simulation.known_refl .empty)
  generalize run .empty = one, other .empty = two at done
  cases done with
  | none => exact .none
  | some similar => exact .some ⟨similar.result, similar.reports, same⟩

theorem trans {run middle other : Run α} (first : simulation.Matches run middle)
    (second : simulation.Matches middle other) : simulation.Matches run other := by
  intro known known' same
  have one := first known known' same
  have two := second known' known' (simulation.known_refl known')
  generalize run known = start, middle known' = between, other known' = finish at one two
  cases one with
  | none =>
      cases two
      exact .none
  | some similar =>
      cases two with
      | some alike =>
          exact .some ⟨similar.result.trans alike.result,
            simulation.reports_trans similar.reports alike.reports,
            simulation.known_trans similar.known alike.known⟩

theorem andThen {first other second further : Validator}
    (firstMatches : ∀ value, simulation.Matches (first value) (other value))
    (secondMatches : ∀ value, simulation.Matches (second value) (further value)) (value : Json) :
    simulation.Matches (first.andThen second value) (other.andThen further value) :=
  (firstMatches value).bind fun result => match result with
    | some next => secondMatches next
    | none => matches_pure none

theorem publishingIf {chain other : Validator} (publishes : Bool) (name : String)
    (chainMatches : ∀ value, simulation.Matches (chain value) (other value)) (value : Json) :
    simulation.Matches (chain.publishingIf publishes name value)
      (other.publishingIf publishes name value) := by
  cases publishes with
  | false => exact chainMatches value
  | true =>
      refine andThen chainMatches (fun value known known' same => ?_) value
      exact .some ⟨rfl, simulation.reports_nil, simulation.publish name value same⟩

theorem validateItems {item other : Validator}
    (itemMatches : ∀ value, simulation.Matches (item value) (other value)) (values : List Json) :
    ∀ position, simulation.Matches (item.validateItems position values)
      (other.validateItems position values) := by
  induction values with
  | nil => exact fun _ => matches_pure []
  | cons value rest ih =>
      exact fun position => ((itemMatches value).within _).bind fun _ => (ih (position + 1)).map

end Matches

end Run.Simulation

/-! ### Like steps -/

/-- **Which steps stand for one another**: checks, error tags, handles, and orders of fields. -/
structure Step.Likeness where
  checks : Step → Step → Prop
  tags : Option ErrorTag → Option ErrorTag → Prop
  handles : Nat → Nat → Prop
  orders : List Field → List Field → Prop

mutual

/-- **Steps of the same shape.** -/
inductive Step.Like (likeness : Step.Likeness) : Step → Step → Prop
  | check {first second : Step} (checks : likeness.checks first second) :
      Step.Like likeness first second
  | object {fields others : List Field} {tag other : Option ErrorTag}
      (like : Field.AllLike likeness fields others) (tags : likeness.tags tag other) :
      Step.Like likeness (.object fields tag) (.object others other)
  | reordered {fields between others : List Field} {tag other : Option ErrorTag}
      (like : Field.AllLike likeness fields between) (orders : likeness.orders between others)
      (tags : likeness.tags tag other) :
      Step.Like likeness (.object fields tag) (.object others other)
  | array {chain further : List Step} {tag other : Option ErrorTag}
      (like : Step.ChainLike likeness chain further) (tags : likeness.tags tag other) :
      Step.Like likeness (.array chain tag) (.array further other)
  | named {first second : Step} {handle other : Nat} (calls : first.handle? = some handle)
      (callsOther : second.handle? = some other) (handles : likeness.handles handle other) :
      Step.Like likeness first second

/-- Chains of like steps. -/
inductive Step.ChainLike (likeness : Step.Likeness) : List Step → List Step → Prop
  | nil : Step.ChainLike likeness [] []
  | cons {first second : Step} {chain others : List Step} (here : Step.Like likeness first second)
      (later : Step.ChainLike likeness chain others) :
      Step.ChainLike likeness (first :: chain) (second :: others)

/-- Fields of the same names with like chains. -/
inductive Field.AllLike (likeness : Step.Likeness) : List Field → List Field → Prop
  | nil : Field.AllLike likeness [] []
  | cons {name : String} {chain other : List Step} {publishes : Bool} {fields others : List Field}
      (here : Step.ChainLike likeness chain other) (later : Field.AllLike likeness fields others) :
      Field.AllLike likeness (.mk name chain publishes :: fields)
        (.mk name other publishes :: others)

end

section Like

variable {likeness : Step.Likeness}

theorem Step.ChainLike.append {chain others rest further : List Step}
    (like : Step.ChainLike likeness chain others) (later : Step.ChainLike likeness rest further) :
    Step.ChainLike likeness (chain ++ rest) (others ++ further) := by
  induction chain generalizing others with
  | nil =>
      cases like
      exact later
  | cons step chain ih =>
      cases like with
      | cons here more => exact .cons here (ih more)

theorem Field.AllLike.isEmpty_eq {fields others : List Field}
    (like : Field.AllLike likeness fields others) :
    fields.isEmpty = others.isEmpty := by
  cases like <;> rfl

/-- A step that calls a handle is evaluated as the handle is. -/
theorem Step.validate_of_handle {step : Step} {handle : Nat} (calls : step.handle? = some handle)
    (bindings : Bindings) (call : Nat → Validator) : step.validate bindings call = call handle := by
  cases step <;> cases calls <;> rfl

/-- A check is evaluated without the handles. -/
theorem Step.validate_of_isCheck {step : Step} (check : step.isCheck) (bindings : Bindings)
    (call further : Nat → Validator) :
    step.validate bindings call = step.validate bindings further := by
  cases step with
  | object | array | call | define => cases check
  | _ => rfl

end Like

/-! ### Steps of one kind -/

section Among

/-- The checks of a likeness that are of some kind. -/
def Step.Likeness.among (likeness : Step.Likeness) (kind : Step → Prop) : Step.Likeness :=
  { likeness with checks := fun first second => kind first ∧ likeness.checks first second }

variable {likeness : Step.Likeness} {kind : Step → Prop}

mutual

/-- Steps that are of some kind everywhere are like others among those. -/
theorem Step.Like.among : {first second : Step} → Step.Like likeness first second →
    first.Everywhere kind → Step.Like (likeness.among kind) first second
  | _, _, .check checks => fun everywhere => .check ⟨everywhere.here, checks⟩
  | _, _, .object like tags => fun everywhere => .object (like.among everywhere.2) tags
  | _, _, .reordered like orders tags =>
      fun everywhere => .reordered (like.among everywhere.2) orders tags
  | _, _, .array like tags => fun everywhere => .array (like.among everywhere.2) tags
  | _, _, .named calls callsOther handles => fun _ => .named calls callsOther handles

theorem Step.ChainLike.among : {chain others : List Step} → Step.ChainLike likeness chain others →
    Step.ChainEverywhere kind chain → Step.ChainLike (likeness.among kind) chain others
  | _, _, .nil => fun _ => .nil
  | _, _, .cons here later =>
      fun everywhere => .cons (here.among everywhere.1) (later.among everywhere.2)

theorem Field.AllLike.among : {fields others : List Field} → Field.AllLike likeness fields others →
    Field.AllEverywhere kind fields → Field.AllLike (likeness.among kind) fields others
  | _, _, .nil => fun _ => .nil
  | _, _, .cons here later =>
      fun everywhere => .cons (here.among everywhere.1) (later.among everywhere.2)

end

end Among

/-- **What like steps need to match**, given bindings and validators for the handles on both
sides. -/
structure Step.Likeness.Holds (likeness : Step.Likeness) (simulation : Run.Simulation)
    (bindings others : Bindings) (call further : Nat → Validator) : Prop where
  checks : ∀ {first second}, likeness.checks first second → ∀ value,
    simulation.Matches (first.validate bindings call value) (second.validate others further value)
  tags : ∀ {tag other}, likeness.tags tag other → ∀ name params,
    simulation.Matches (ErrorTag.fail bindings tag name params)
      (ErrorTag.fail others other name params)
  handles : ∀ {handle other}, likeness.handles handle other → ∀ value,
    simulation.Matches (call handle value) (further other value)
  orders : ∀ {fields changed}, likeness.orders fields changed → fields.isEmpty = changed.isEmpty ∧
    ∀ members, simulation.Matches (Field.validateAll others further fields members)
      (Field.validateAll others further changed members)

section Matching

variable {likeness : Step.Likeness} {simulation : Run.Simulation} {bindings others : Bindings}
  {call further : Nat → Validator}

/-- Objects match if their fields do. -/
theorem Step.Likeness.Holds.object (holds : likeness.Holds simulation bindings others call further)
    {fields changed : List Field} {tag other : Option ErrorTag} (tags : likeness.tags tag other)
    (empty : fields.isEmpty = changed.isEmpty)
    (fieldsMatch : ∀ members, simulation.Matches (Field.validateAll bindings call fields members)
      (Field.validateAll others further changed members)) (value : Json) :
    simulation.Matches ((Step.object fields tag).validate bindings call value)
      ((Step.object changed other).validate others further value) := by
  cases value with
  | object members =>
      simp only [Step.validate, empty]
      split
      · exact Run.Simulation.matches_pure _
      · exact (fieldsMatch members).map
  | _ => exact holds.tags tags "object" []

mutual

/-- **Like steps match.** -/
theorem Step.Like.matches (holds : likeness.Holds simulation bindings others call further) :
    {first second : Step} → Step.Like likeness first second → ∀ value,
      simulation.Matches (first.validate bindings call value) (second.validate others further value)
  | _, _, .check checks => holds.checks checks
  | _, _, .object like tags => holds.object tags like.isEmpty_eq (like.matches holds)
  | _, _, .reordered like orders tags => by
      obtain ⟨empty, reordered⟩ := holds.orders orders
      exact holds.object tags (like.isEmpty_eq.trans empty)
        fun members => (like.matches holds members).trans (reordered members)
  | .array chain tag, .array other _, .array like tags => fun value => by
      cases value with
      | array items => exact (Run.Simulation.Matches.validateItems (like.matches holds) items 0).map
      | _ => exact holds.tags tags "array" []
  | _, _, .named calls callsOther handles => fun value => by
      rw [Step.validate_of_handle calls, Step.validate_of_handle callsOther]
      exact holds.handles handles value

/-- **Like chains match.** -/
theorem Step.ChainLike.matches (holds : likeness.Holds simulation bindings others call further) :
    {chain other : List Step} → Step.ChainLike likeness chain other → ∀ value,
      simulation.Matches (Step.validateChain bindings call chain value)
        (Step.validateChain others further other value)
  | _, _, .nil => fun value => Run.Simulation.matches_pure (some value)
  | _, _, .cons here later =>
      Run.Simulation.Matches.andThen (here.matches holds) (later.matches holds)

/-- Like fields match. -/
theorem Field.AllLike.matches (holds : likeness.Holds simulation bindings others call further) :
    {fields changed : List Field} → Field.AllLike likeness fields changed → ∀ members,
      simulation.Matches (Field.validateAll bindings call fields members)
        (Field.validateAll others further changed members)
  | _, _, .nil => fun _ => Run.Simulation.matches_pure []
  | .mk name _ publishes :: _, _, .cons here later => fun members =>
      ((Run.Simulation.Matches.publishingIf publishes name (here.matches holds) _).within _).bind
        fun _ => (later.matches holds members).map

end

end Matching

/-! ### Named schemas -/

namespace Run.Simulation

variable (simulation : Run.Simulation) (bindings others : Bindings) (handles : Nat → Nat → Prop)
  (good : (Nat → Validator) → Prop)

/-- **Chains match whenever the handles do**, if the validators of the second are good. -/
def ChainsMatch (chain other : List Step) : Prop :=
  ∀ call further : Nat → Validator, good further →
    (∀ handle changed, handles handle changed → ∀ value,
      simulation.Matches (call handle value) (further changed value)) →
    ∀ value, simulation.Matches (Step.validateChain bindings call chain value)
      (Step.validateChain others further other value)

variable {simulation bindings others handles good} {bodies changed : List (List Step)}

/-- **Invocations of named schemas match if the bodies do**, within every budget. -/
theorem invokeWithin_matches
    (goods : ∀ budget, good (Step.invokeWithin changed others budget))
    (bodiesMatch : ∀ handle other, handles handle other → ∃ body further,
      bodies[handle]? = some body ∧ changed[other]? = some further ∧
        simulation.ChainsMatch bindings others handles good body further) (budget : Nat) :
    ∀ handle other, handles handle other → ∀ value,
      simulation.Matches (Step.invokeWithin bodies bindings budget handle value)
        (Step.invokeWithin changed others budget other value) := by
  induction budget with
  | zero => exact fun _ _ _ _ => matches_exhausted
  | succ budget ih =>
      intro handle other related value
      obtain ⟨body, further, found, foundOther, bodyMatches⟩ := bodiesMatch handle other related
      rw [Step.invokeWithin, Step.invokeWithin, found, foundOther]
      exact bodyMatches _ _ (goods budget) ih value

/-- **Whole chains match**, in what they answer and in whether they end. -/
theorem validateChain_invoke {chain other : List Step}
    (goods : ∀ budget, good (Step.invokeWithin changed others budget))
    (bodiesMatch : ∀ handle other, handles handle other → ∃ body further,
      bodies[handle]? = some body ∧ changed[other]? = some further ∧
        simulation.ChainsMatch bindings others handles good body further)
    (rootMatches : simulation.ChainsMatch bindings others handles good chain other) (value : Json) :
    simulation.Matches (Step.validateChain bindings (Step.invoke bodies bindings) chain value)
      (Step.validateChain others (Step.invoke changed others) other value) := by
  intro first second same
  -- within a budget that is enough for one side, the other side ends too
  have within : ∀ budget, Option.Rel simulation.Similar
      (Step.validateChain bindings (Step.invokeWithin bodies bindings budget) chain value first)
      (Step.validateChain others (Step.invokeWithin changed others budget) other value second) :=
    fun budget => rootMatches _ _ (goods budget)
      (invokeWithin_matches goods bodiesMatch budget) value first second same
  cases ends : Step.validateChain bindings (Step.invoke bodies bindings) chain value first with
  | some outcome =>
      obtain ⟨budget, endsWithin⟩ := Step.validateChain_eq_some_iff.mp ends
      have both := within budget
      rw [endsWithin] at both
      cases endsOther :
          Step.validateChain others (Step.invokeWithin changed others budget) other value
            second with
      | none =>
          rw [endsOther] at both
          cases both
      | some reached =>
          rw [endsOther] at both
          rwa [Step.validateChain_eq_some_iff.mpr ⟨budget, endsOther⟩]
  | none =>
      cases endsOther :
        Step.validateChain others (Step.invoke changed others) other value second with
      | none => exact .none
      | some outcome =>
          obtain ⟨budget, endsWithin⟩ := Step.validateChain_eq_some_iff.mp endsOther
          have both := within budget
          rw [endsWithin] at both
          cases endsFirst :
              Step.validateChain bindings (Step.invokeWithin bodies bindings budget) chain value
                first with
          | none =>
              rw [endsFirst] at both
              cases both
          | some reached =>
              cases ends.symm.trans (Step.validateChain_eq_some_iff.mpr ⟨budget, endsFirst⟩)

end Run.Simulation

/-! ### Templates -/

/-- **Two templates are alike**: so are their chains, and the bodies of handles that stand for one
another. -/
structure Template.Alike (likeness : Step.Likeness) (first second : Template) : Prop where
  root : Step.ChainLike likeness first.root second.root
  bodies : ∀ handle other, likeness.handles handle other → ∃ body further,
    first.bodies[handle]? = some body ∧ second.bodies[other]? = some further ∧
      Step.ChainLike likeness body further

namespace Template

/-- Templates of steps of some kind are alike among those. -/
theorem Alike.among {likeness : Step.Likeness} {first second : Template}
    (alike : Alike likeness first second) {kind : Step → Prop}
    (root : Step.ChainEverywhere kind first.root)
    (bodies : ∀ (handle : Nat) (body : List Step), first.bodies[handle]? = some body →
      Step.ChainEverywhere kind body) : Alike (likeness.among kind) first second where
  root := alike.root.among root
  bodies handle other related := by
    obtain ⟨body, further, found, foundOther, like⟩ := alike.bodies handle other related
    exact ⟨body, further, found, foundOther, like.among (bodies handle body found)⟩

variable {likeness : Step.Likeness} {simulation : Run.Simulation} {first second : Template}
  {bindings others : Bindings} {good : (Nat → Validator) → Prop}

/-- **The chains of templates that are alike match**, if like steps do wherever the handles do. -/
theorem Alike.validateChain_matches (alike : Alike likeness first second)
    (goods : ∀ budget, good (Step.invokeWithin second.bodies others budget))
    (holds : ∀ call further : Nat → Validator, good further →
      (∀ handle other, likeness.handles handle other → ∀ value,
        simulation.Matches (call handle value) (further other value)) →
      likeness.Holds simulation bindings others call further) (value : Json) :
    simulation.Matches
      (Step.validateChain bindings (Step.invoke first.bodies bindings) first.root value)
      (Step.validateChain others (Step.invoke second.bodies others) second.root value) := by
  have chainsMatch {chain other : List Step} (like : Step.ChainLike likeness chain other) :
      simulation.ChainsMatch bindings others likeness.handles good chain other :=
    fun call further isGood handlesMatch => like.matches (holds call further isGood handlesMatch)
  refine Run.Simulation.validateChain_invoke goods (fun handle other related => ?_)
    (chainsMatch alike.root) value
  obtain ⟨body, further, found, foundOther, like⟩ := alike.bodies handle other related
  exact ⟨body, further, found, foundOther, chainsMatch like⟩

/-- Suffixes that collect no errors keep runs that match. -/
theorem foldl_combinator_matches {inner other : Validator} {suffixes : List Suffix}
    (apart : suffixes.any Suffix.collects = false)
    (innerMatches : ∀ value, simulation.Matches (inner value) (other value)) (value : Json) :
    simulation.Matches
      (suffixes.foldl (fun inner suffix => suffix.combinator bindings inner) inner value)
      (suffixes.foldl (fun inner suffix => suffix.combinator others inner) other value) := by
  induction suffixes generalizing inner other with
  | nil => exact innerMatches value
  | cons suffix rest ih =>
      rw [List.any_cons, Bool.or_eq_false_iff] at apart
      cases suffix with
      | collecting _ => cases apart.1
      | apart => exact ih apart.2 fun value => (innerMatches value).apart

/-- **Templates that are alike match**, if their suffixes are the same and collect no errors. -/
theorem Alike.validate_matches (alike : Alike likeness first second)
    (suffixes : second.suffixes = first.suffixes) (apart : first.collectsErrors = false)
    (goods : ∀ budget, good (Step.invokeWithin second.bodies others budget))
    (holds : ∀ call further : Nat → Validator, good further →
      (∀ handle other, likeness.handles handle other → ∀ value,
        simulation.Matches (call handle value) (further other value)) →
      likeness.Holds simulation bindings others call further) (value : Json) :
    simulation.Matches (first.validate bindings value) (second.validate others value) := by
  rw [validate_eq_foldl, validate_eq_foldl, suffixes]
  exact foldl_combinator_matches apart (alike.validateChain_matches goods holds) value

end Template

end Schemata
