/-
**What a run leaves behind in the metadata from which it starts.**

All parts of a run share one metadata, which the caller may use again. When the run is over, whether
or not the value has passed, the path is as before, nothing that was published is gone, and nothing
has been published but the fields that comparisons in their objects refer to.

* `Validator.Composed`: the validators that are made of bound templates, and `Composed.respects`:
  such a validator respects every evolution of metadata;
* `Param.Publishes`: an object of a forest has a field that comparisons in it refer to;
* `Template.publishes_everywhere`: a template publishes no other fields;
* `Template.validate_footprint`: so this is all that its runs leave behind.
-/

import Mathlib
import Schemata.Proofs.Evaluation.Evolution
import Schemata.Proofs.Evaluation.Publication
import Schemata.Proofs.Template.Soundness

namespace Schemata

/-! ### Validators made of others -/

/-- **The validators that are made of bound templates.** -/
inductive Validator.Composed : Validator → Prop
  | template {forest : List Param} {template : Template}
      (compiles : Template.ofForest forest = .ok template) (bindings : Bindings) :
      Composed (template.validate bindings)
  | consecutive {validators : List Validator}
      (each : ∀ validator ∈ validators, Composed validator) :
      Composed (consecutive validators)
  | parallel {validators : List Validator} (each : ∀ validator ∈ validators, Composed validator) :
      Composed (parallel validators)
  | firstOf {validators : List Validator} (each : ∀ validator ∈ validators, Composed validator) :
      Composed (firstOf validators)
  | publishing (name : String) (external : Option Injected) : Composed (publishing name external)
  | withPublished (name : String) {build : Option Json → List Validator}
      (each : ∀ published, ∀ validator ∈ build published, Composed validator) :
      Composed (withPublished name build)
  | defaulting (default : Injected) {validators : List Validator}
      (each : ∀ validator ∈ validators, Composed validator) :
      Composed (defaulting default validators)
  | collecting (processor : Option Injected) {inner : Validator} (composed : Composed inner) :
      Composed (collecting processor inner)
  | apart {inner : Validator} (composed : Composed inner) : Composed (apart inner)

/-! ### Suffixes -/

section Suffixes

variable {evolves : Meta → Meta → Prop}

/-- Keeping reports back changes nothing in the metadata. -/
theorem Run.Evolves.hold {α : Type} {run : Run α} (runEvolves : run.Evolves evolves) :
    (Run.hold run).Evolves evolves := by
  intro known outcome ends
  obtain ⟨done, runEnds, same⟩ := Option.bind_eq_some_iff.mp ends
  cases same
  exact runEvolves _ _ runEnds

theorem Validator.collecting_evolves {inner : Validator} (processor : Option Injected)
    (innerEvolves : ∀ value, (inner value).Evolves evolves) (value : Json) :
    (inner.collecting processor value).Evolves evolves := by
  intro known outcome ends
  rw [collecting_apply] at ends
  obtain ⟨done, innerEnds, rfl⟩ := Option.map_eq_some_iff.mp ends
  exact innerEvolves value known done innerEnds

/-- Metadata of its own are dropped. -/
theorem Validator.apart_evolves (refl : ∀ known, evolves known known) (inner : Validator)
    (value : Json) :
    (inner.apart value).Evolves evolves := by
  intro known outcome ends
  rw [apart_apply] at ends
  obtain ⟨done, -, rfl⟩ := Option.map_eq_some_iff.mp ends
  exact refl known

/-- **Suffixes add nothing to what the chain of a template leaves behind.** -/
theorem Template.validate_evolves {template : Template} {bindings : Bindings}
    (refl : ∀ known, evolves known known)
    (root : ∀ value, (Step.validateChain bindings (Step.invoke template.bodies bindings)
      template.root value).Evolves evolves) (value : Json) :
    (template.validate bindings value).Evolves evolves := by
  rw [validate_eq_foldl]
  generalize Step.validateChain bindings (Step.invoke template.bodies bindings)
    template.root = inner at root ⊢
  induction template.suffixes generalizing inner with
  | nil => exact root value
  | cons suffix rest ih =>
      refine ih _ ?_
      cases suffix with
      | collecting processor => exact Validator.collecting_evolves _ root
      | apart => exact Validator.apart_evolves refl inner

end Suffixes

/-! ### Groups -/

section Groups

variable {evolves : Meta → Meta → Prop} (evolution : Meta.Evolution evolves)
include evolution

/-- **The chain of a template respects every evolution.** -/
theorem Template.root_evolves (template : Template) (bindings : Bindings) (value : Json) :
    (Step.validateChain bindings (Step.invoke template.bodies bindings) template.root value).Evolves
      evolves := by
  intro known outcome ends
  obtain ⟨budget, ends⟩ := Step.validateChain_eq_some_iff.mp ends
  exact Step.validateChain_evolves evolution (Step.invokeWithin_evolves evolution budget)
    _ _ _ _ ends

namespace Validator

theorem consecutive_evolves {validators : List Validator}
    (each : ∀ validator ∈ validators, ∀ value, (validator value).Evolves evolves) :
    ∀ value, (consecutive validators value).Evolves evolves := by
  induction validators with
  | nil => exact fun _ => Run.pure_evolves evolution _
  | cons first others ih =>
      obtain ⟨here, later⟩ := List.forall_mem_cons.mp each
      exact evolution.closed.andThen here (ih later)

theorem alongside_evolves {validators : List Validator} {value : Json}
    (each : ∀ validator ∈ validators, (validator value).Evolves evolves) :
    ∀ output, (alongside value output validators).Evolves evolves := by
  induction validators with
  | nil => exact fun _ => Run.pure_evolves evolution _
  | cons next others ih =>
      obtain ⟨here, later⟩ := List.forall_mem_cons.mp each
      exact fun output => here.bind evolution fun result => ih later _

theorem tryEach_evolves {validators : List Validator} {value : Json}
    (each : ∀ validator ∈ validators, (validator value).Evolves evolves) :
    ∀ held, (tryEach value held validators).Evolves evolves := by
  induction validators with
  | nil =>
      intro held known outcome ends
      cases ends
      exact evolution.refl known
  | cons candidate others ih =>
      intro held
      obtain ⟨here, later⟩ := List.forall_mem_cons.mp each
      refine here.hold.bind evolution fun (result, events) => ?_
      cases result with
      | none => exact ih later _
      | some answer => exact Run.pure_evolves evolution _

theorem publishingExternal_evolves (name : String) (external : Option Injected) (value : Json) :
    (publishing name external value).Evolves evolves := by
  intro known outcome ends
  cases ends
  exact evolution.publish name _ known

/-- **A validator that is made of templates respects every evolution.** -/
theorem Composed.respects {validator : Validator} (composed : Composed validator) :
    ∀ value, (validator value).Evolves evolves := by
  induction composed with
  | template _ bindings =>
      exact Template.validate_evolves evolution.refl (Template.root_evolves evolution _ bindings)
  | consecutive _ ih => exact consecutive_evolves evolution ih
  | parallel _ ih =>
      exact fun value => alongside_evolves evolution (fun _ member => ih _ member value) _
  | @firstOf validators _ ih =>
      intro value
      cases validators with
      | nil => exact Run.pure_evolves evolution _
      | cons first others => exact tryEach_evolves evolution (fun _ member => ih _ member value) []
  | publishing name external => exact publishingExternal_evolves evolution name external
  | withPublished name _ ih =>
      exact fun value => (Run.known_evolves evolution).bind evolution fun known =>
        consecutive_evolves evolution (ih _) value
  | @defaulting default validators _ ih =>
      intro value
      unfold Validator.defaulting
      split
      · exact (Run.known_evolves evolution).bind evolution fun _ => Run.pure_evolves evolution _
      · exact consecutive_evolves evolution ih value
  | collecting processor _ ih => exact collecting_evolves _ ih
  | apart _ _ => exact apart_evolves evolution.refl _

end Validator

end Groups

/-- **A run takes back nothing that is published.** -/
theorem Meta.published_evolution : Meta.Evolution fun known after =>
    ∀ name, (known.published? name).isSome → (after.published? name).isSome where
  refl _ _ present := present
  trans first last name present := last name (first name present)
  describe _ _ _ _ present := present
  publish name value known other present := by
    rw [Meta.published?_publish]
    split
    · rfl
    · exact present
  inside kept name present := kept name present

/-! ### Fields that are published -/

/-- **A comparison refers to a field**: one of the invocation itself, or of an invocation inside
it. -/
inductive Invocation.Compares (name : String) : Invocation → Prop
  | operand {validator : String} {params : List Param} {tag : Option ErrorTag} {relation : Relation}
      (member : .comparison ⟨relation, .field name⟩ ∈ params) :
      Compares name (.mk validator params tag)
  | inside {validator : String} {params : List Param} {tag : Option ErrorTag} {child : Invocation}
      (member : .validator child ∈ params) (compares : Compares name child) :
      Compares name (.mk validator params tag)

/-- **A forest publishes a name**: one of its objects has a field of this name, and a comparison in
the object refers to it. -/
def Param.Publishes (forest : List Param) (name : String) : Prop :=
  ∃ scopes params tag, Param.Occurs forest scopes (.mk "object" params tag) ∧
    name ∈ Param.fieldNames params ∧ (Invocation.mk "object" params tag).Compares name

theorem Invocation.Compares.cons {name validator : String} {param : Param} {rest : List Param}
    {tag : Option ErrorTag} (compares : Compares name (.mk validator rest tag)) :
    Compares name (.mk validator (param :: rest) tag) := by
  cases compares with
  | operand member => exact .operand (List.mem_cons_of_mem _ member)
  | inside member compares => exact .inside (List.mem_cons_of_mem _ member) compares

mutual

/-- **The fields that are listed for an invocation are those that its comparisons refer to.** -/
theorem Invocation.compares_of_mem {name : String} :
    (invocation : Invocation) → name ∈ invocation.referencedFields → invocation.Compares name
  | .mk validator params tag, listed => Param.compares_of_mem params listed validator tag

theorem Param.compares_of_mem {name : String} :
    (params : List Param) → name ∈ Param.referencedFields params →
      ∀ validator tag, (Invocation.mk validator params tag).Compares name
  | [], listed => nomatch listed
  | param :: rest, listed => fun validator tag => by
      rcases List.mem_append.mp listed with here | later
      · exact Param.compares_of_mem_referencedIn param here rest validator tag
      · exact (Param.compares_of_mem rest later validator tag).cons

theorem Param.compares_of_mem_referencedIn {name : String} :
    (param : Param) → name ∈ Param.referencedIn param →
      ∀ rest validator tag, (Invocation.mk validator (param :: rest) tag).Compares name
  | .validator child, listed => fun _ _ _ =>
      .inside List.mem_cons_self (Invocation.compares_of_mem child listed)
  | .comparison ⟨_, .field _⟩, listed => fun _ _ _ => by
      cases List.mem_singleton.mp listed
      exact .operand List.mem_cons_self
  | .comparison ⟨_, .number _⟩, listed | .comparison ⟨_, .text _⟩, listed
  | .comparison ⟨_, .injection _⟩, listed | .token _, listed | .text _, listed
  | .injection _, listed => nomatch listed

end

/-- An object publishes fields that its forest publishes. -/
def Step.PublishesIn (forest : List Param) (step : Step) : Prop :=
  ∀ fields tag name chain, step = .object fields tag → .mk name chain true ∈ fields →
    Param.Publishes forest name

/-- **A template publishes only what its forest does.** -/
theorem Template.publishes_everywhere {forest : List Param} {template : Template}
    (compiles : ofForest forest = .ok template) :
    Step.ChainEverywhere (Step.PublishesIn forest) template.root := by
  refine everywhere_of_occurs compiles fun around invocation names scopes step occurs compiled => ?_
  rintro fields tag name chain rfl member
  cases compiled with
  | check checks => cases checks.spec.1
  | @object params _ declared first _ declares steps =>
      have referenced := Param.compileFields_publishes steps member
      have listed := List.contains_iff_mem.mp referenced.symm
      have declared : name ∈ fields.map Field.name := List.mem_map.mpr ⟨_, member, rfl⟩
      rw [Param.compileFields_names steps] at declared
      exact ⟨around, params, _, occurs, declared, Param.compares_of_mem params listed _ _⟩

/-! ### Footprints -/

/-- **What a run of a schema may leave behind.** -/
structure Meta.Footprint (forest : List Param) (known after : Meta) : Prop where
  path : after.path = known.path
  kept : ∀ name, (known.published? name).isSome → (after.published? name).isSome
  changed : ∀ name, after.published? name ≠ known.published? name → Param.Publishes forest name

namespace Template

/-- **A value is published in a run only under a name that the forest publishes.** -/
theorem publishes_of_changed {forest : List Param} {template : Template}
    (compiles : ofForest forest = .ok template) {bindings : Bindings} {value : Json} {known : Meta}
    {outcome : Outcome (Option Json)}
    (ends : Step.validateChain bindings (Step.invoke template.bodies bindings) template.root value
      known = some outcome) {name : String}
    (changed : outcome.known.published? name ≠ known.published? name) :
    Param.Publishes forest name := by
  obtain ⟨budget, ends⟩ := Step.validateChain_eq_some_iff.mp ends
  have chronicle := Meta.follows_chronicle bindings
  have follows := chronicle.validateChain (chronicle.invokeWithin budget) _ [] 0 _ _ _ ends name
  cases last : Moment.lastPublished name (Step.momentsOfChain bindings
      (Step.invokeWithin template.bodies bindings budget)
      (Step.momentsWithin template.bodies bindings budget) [] 0 template.root value known) with
  | none =>
      rw [last] at follows
      exact absurd follows changed
  | some published =>
      -- the field that was settled with this value belongs to an object of the template
      obtain ⟨spot, index, position, chain, settled⟩ := Moment.settled_of_lastPublished last
      obtain ⟨_, _, done, later, tag, _, _, _, _, _, visit, -⟩ := Step.settled_mem_visits settled
      have here := visit.step_at (ofForest_coherent compiles)
      have publishes := (Step.everywhere_stepAt (publishes_everywhere compiles) here).here
      exact publishes _ _ _ _ rfl (List.mem_append_right _ List.mem_cons_self)

/-- **A run of a bound template leaves its path as it is, takes back nothing that is published, and
changes only what its forest publishes.** And every validator that is made of bound templates leaves
the path as it is. -/
theorem validate_footprint :
    (∀ forest template, ofForest forest = .ok template → ∀ bindings value known outcome,
      template.validate bindings value known = some outcome →
        Meta.Footprint forest known outcome.known) ∧
    ∀ validator, Validator.Composed validator → ∀ value known outcome,
      validator value known = some outcome → outcome.known.path = known.path := by
  refine ⟨fun forest template compiles bindings value known outcome ends => ?_,
    fun validator composed => composed.respects Meta.path_evolution⟩
  have root :
      ∀ value, (Step.validateChain bindings (Step.invoke template.bodies bindings) template.root
      value).Evolves (Meta.Footprint forest) := fun value known outcome ends =>
    { path := root_evolves Meta.path_evolution _ _ _ _ _ ends
      kept := root_evolves Meta.published_evolution _ _ _ _ _ ends
      changed := fun _ => publishes_of_changed compiles ends }
  have unchanged : ∀ known, Meta.Footprint forest known known := fun _ =>
    ⟨rfl, fun _ present => present, fun _ changed => absurd rfl changed⟩
  exact validate_evolves unchanged root value known outcome ends

/-- A comparison that fails inside an array leaves the member `n` published behind, beside what was
published before. -/
theorem validate_footprint_sibling :
    let forest : List Param := [.validator (.mk "array" [.validator (.mk "object" [.text "n",
      .validator (.mk "string" [] none), .text "m",
      .validator (.mk "compare" [.comparison ⟨.equal, .field "n"⟩] none)] none)] none)]
    let value : Json := .array [.object [("m", .string "b"), ("n", .string "a")]]
    let known : Meta := ⟨[.key "k"], [("d", .null)], none, []⟩
    ∃ template, ofForest forest = .ok template ∧
      ∃ outcome, template.validate .empty value known = some outcome ∧
        outcome.known.published? "n" = some (.string "a") ∧
        Meta.Footprint forest known outcome.known ∧
        Validator.Composed (template.validate .empty).apart ∧
        ∃ apart, (template.validate .empty).apart value known = some apart ∧
          apart.known.path = known.path := by
  intro forest value known
  let root : List Step := [.array [.object [.mk "n" [.primitive .string none] true,
    .mk "m" [.comparison .equal (.field "n") none] false] none] none]
  have compiles : ofForest forest = .ok ⟨root, [], []⟩ := by cbv
  let outcome : Outcome (Option Json) :=
    ⟨some (.array [.object [("m", .null), ("n", .string "a")]]), [], ⟨[.key "k"],
      [("d", .null), ("n", .string "a")], some "compare", [.string "=", .string "a"]⟩⟩
  have ends : validate ⟨root, [], []⟩ .empty value known = some outcome := by
    simp only [root, value, known, outcome]
    cbv
  have apart : (validate ⟨root, [], []⟩ .empty).apart value known =
      some ⟨outcome.result, [], known⟩ := by
    simp only [root, value, known, outcome]
    cbv
  have composed : Validator.Composed (validate ⟨root, [], []⟩ .empty).apart :=
    .apart (.template compiles .empty)
  exact ⟨_, compiles, outcome, ends, by cbv,
    validate_footprint.1 forest _ compiles .empty value known outcome ends,
    composed, _, apart, validate_footprint.2 _ composed value known _ apart⟩

end Template

end Schemata
