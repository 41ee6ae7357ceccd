/-
**What the compiler sees to at every step of a template.**

* `Invocation.compile_everywhere`: what holds of every step that the compiler makes holds of all
  steps inside it;
* `Step.Sound`: a call has a handle that is defined, and the fields of an object differ and publish
  what is read inside the object;
* `Template.everywhere_of_occurs`: all steps of a template are made of invocations of its forest;
* `Template.Compiles.sound`: all steps of a template are sound.
-/

import Schemata.Proofs.Compilation.Names
import Schemata.Proofs.Template.Everywhere

namespace Schemata

/-! ### Everywhere in compiled steps -/

section Compiled

variable {names : List String} {concerns : Invocation → Prop} {holds : Step → Prop}

mutual

/-- **What holds of every step that is made of some invocations holds everywhere in them**, if those
inside an invocation are among them too. -/
theorem Invocation.compile_everywhere
    (inherited : ∀ validator params tag child, concerns (.mk validator params tag) →
      .validator child ∈ params → concerns child)
    (each : ∀ invocation scopes step, concerns invocation →
      Invocation.Compiles names scopes invocation step → holds step) :
    (invocation : Invocation) → concerns invocation → ∀ scopes step,
      invocation.compile names scopes = .ok step → step.Everywhere holds
  | .mk validator params tag, concerned => by
      have inside := fun child => inherited validator params tag child concerned
      have chain := Param.compileChain_everywhere inherited each params inside
      have fields := Param.compileFields_everywhere inherited each params inside
      intro scopes step compiles
      have compiled := Invocation.compiles_of_ok compiles
      have here := each _ _ _ concerned compiled
      cases compiled with
      | check checks =>
          have check := checks.spec.1
          cases step with
          | object | array | call | define => cases check
          | _ => exact here
      | object _ steps =>
          exact ⟨here, (fields _ _ _ _ _ _ steps).2⟩
      | array _ steps => exact ⟨here, chain _ _ steps⟩
      | definition named _ _ _ steps =>
          exact ⟨here, chain _ _ ((Param.compileChain_of_named named).trans steps)⟩
      | reference _ _ => exact here

theorem Param.compileChain_everywhere
    (inherited : ∀ validator params tag child, concerns (.mk validator params tag) →
      .validator child ∈ params → concerns child)
    (each : ∀ invocation scopes step, concerns invocation →
      Invocation.Compiles names scopes invocation step → holds step) :
    (params : List Param) → (∀ child, .validator child ∈ params → concerns child) →
      ∀ scopes chain, Param.compileChain names scopes params = .ok chain →
        Step.ChainEverywhere holds chain
  | [], _ => by
      intro scopes chain compiles
      cases compiles
      trivial
  | param :: rest, inside => by
      intro scopes chain compiles
      rw [Param.compileChain] at compiles
      obtain ⟨steps, first, inner⟩ := bind_eq_ok.mp compiles
      obtain ⟨others, second, same⟩ := bind_eq_ok.mp inner
      cases same
      exact Step.chainEverywhere_append
        (Param.compileOne_everywhere inherited each param
          (fun child same => inside child (same ▸ List.mem_cons_self)) _ _ first)
        (Param.compileChain_everywhere inherited each rest
          (fun child member => inside child (List.mem_cons_of_mem _ member)) _ _ second)

theorem Param.compileOne_everywhere
    (inherited : ∀ validator params tag child, concerns (.mk validator params tag) →
      .validator child ∈ params → concerns child)
    (each : ∀ invocation scopes step, concerns invocation →
      Invocation.Compiles names scopes invocation step → holds step) :
    (param : Param) → (∀ child, param = .validator child → concerns child) →
      ∀ scopes steps, Param.compileOne names scopes param = .ok steps →
        Step.ChainEverywhere holds steps
  | .validator invocation, inside => by
      intro scopes steps compiles
      rw [Param.compileOne] at compiles
      obtain ⟨step, inner, same⟩ := bind_eq_ok.mp compiles
      cases same
      exact ⟨Invocation.compile_everywhere inherited each invocation (inside _ rfl) _ _ inner,
        trivial⟩
  | .token _, _ | .text _, _ | .injection _, _ | .comparison _, _ => by
      intro scopes steps compiles
      cases compiles
      trivial

theorem Param.compileFields_everywhere
    (inherited : ∀ validator params tag child, concerns (.mk validator params tag) →
      .validator child ∈ params → concerns child)
    (each : ∀ invocation scopes step, concerns invocation →
      Invocation.Compiles names scopes invocation step → holds step) :
    (params : List Param) → (∀ child, .validator child ∈ params → concerns child) →
      ∀ scopes declared referenced started first fields,
        Param.compileFields names scopes declared referenced started params = .ok (first, fields) →
        Step.ChainEverywhere holds first ∧ Field.AllEverywhere holds fields
  | [], _ => by
      intro scopes declared referenced started first fields compiles
      cases compiles
      exact ⟨trivial, trivial⟩
  | param :: rest, inside => by
      intro scopes declared referenced started first fields compiles
      have later : ∀ child, .validator child ∈ rest → concerns child :=
        fun child member => inside child (List.mem_cons_of_mem _ member)
      rw [Param.compileFields] at compiles
      split at compiles
      · obtain ⟨⟨steps, others⟩, inner, same⟩ := bind_eq_ok.mp compiles
        cases same
        exact ⟨trivial, Param.compileFields_everywhere inherited each rest later _ _ _ _ _ _ inner⟩
      · obtain ⟨one, first, inner⟩ := bind_eq_ok.mp compiles
        obtain ⟨⟨steps, others⟩, second, same⟩ := bind_eq_ok.mp inner
        cases same
        obtain ⟨stepsEverywhere, fieldsEverywhere⟩ :=
          Param.compileFields_everywhere inherited each rest later _ _ _ _ _ _ second
        exact ⟨Step.chainEverywhere_append
          (Param.compileOne_everywhere inherited each param
            (fun child same => inside child (same ▸ List.mem_cons_self)) _ _ first) stepsEverywhere,
          fieldsEverywhere⟩

end

end Compiled

/-! ### Dependencies -/

/-- A comparison depends on no field but its operand. -/
theorem Step.ofComparison_dependency {scopes : List Scope} {validator : String} {ofLength : Bool}
    {params : List Param} {tag : Option ErrorTag} {step : Step} {name : String}
    (compiles : Step.ofComparison scopes validator ofLength params tag = .ok step)
    (depends : step.dependency? = some name) :
    ∃ relation, params = [.comparison ⟨relation, .field name⟩] := by
  unfold Step.ofComparison at compiles
  split at compiles
  · rename_i relation operand
    obtain ⟨bound, bounds, same⟩ := bind_eq_ok.mp compiles
    have read : bound = .field name := by
      cases ofLength <;> cases same <;> cases bound <;> cases depends <;> rfl
    subst read
    refine ⟨relation, ?_⟩
    unfold Bound.ofOperand at bounds
    split at bounds
    · cases bounds
    · split at bounds <;> cases bounds
    · cases bounds
    · obtain ⟨_, -, same⟩ := bind_eq_ok.mp bounds
      cases same
      rfl
  · cases compiles

/-- **A step depends on no field that its invocation does not refer to.** -/
theorem Invocation.Compiles.dependency_referenced {names : List String} {scopes : List Scope}
    {invocation : Invocation} {step : Step} (compiled : invocation.Compiles names scopes step)
    {name : String} (depends : step.dependency? = some name) :
    name ∈ invocation.referencedFields := by
  have independent : ¬step.dependency? = none := by rw [depends]; exact nofun
  cases compiled with
  | check checks =>
      cases checks with
      | primitive _ compiles => exact absurd (Step.check_spec (.inl ⟨_, compiles⟩)).2 independent
      | equality _ compiles =>
          exact absurd (Step.check_spec (.inr (.inl ⟨_, _, compiles⟩))).2 independent
      | membership compiles =>
          exact absurd (Step.check_spec (.inr (.inr (.inl compiles)))).2 independent
      | matching compiles =>
          exact absurd (Step.check_spec (.inr (.inr (.inr compiles)))).2 independent
      | comparison _ compiles =>
          obtain ⟨relation, rfl⟩ := Step.ofComparison_dependency compiles depends
          exact List.mem_cons_self
  | _ => cases depends

theorem Param.referencedFields_subset_of_mem {params : List Param} {invocation : Invocation}
    (member : .validator invocation ∈ params) :
    invocation.referencedFields ⊆ referencedFields params :=
  subset_of_mem referencedIn (fun _ _ => rfl) member

/-- **The fields of an object depend on no field that its parameters do not refer to.** -/
theorem Param.compileFields_dependencies {names declared : List String} {scopes : List Scope}
    {referenced : List String} {params : List Param} {started : Nat} {first : List Step}
    {fields : List Field}
    (compiles : compileFields names scopes declared referenced started params =
      .ok (first, fields)) :
    Field.AllEverywhere
      (fun step => ∀ name, step.dependency? = some name → name ∈ referencedFields params)
      fields := by
  let concerns : Invocation → Prop := fun invocation =>
    invocation.referencedFields ⊆ referencedFields params
  have inherited : ∀ validator inner tag child, concerns (.mk validator inner tag) →
      .validator child ∈ inner → concerns child := fun _ _ _ _ concerned member =>
    List.Subset.trans (referencedFields_subset_of_mem member) concerned
  refine (compileFields_everywhere inherited
    (fun invocation scopes step concerned compiled name depends => ?_) params
    (fun child member => referencedFields_subset_of_mem member) _ _ _ _ _ _ compiles).2
  exact concerned (compiled.dependency_referenced depends)

/-- A field is published if the object refers to it. -/
theorem Param.compileFields_publishes {names declared : List String} {referenced : List String}
    {name : String} {publishes : Bool} {chain : List Step} {params : List Param} :
    ∀ {scopes : List Scope} {started : Nat} {first : List Step} {fields : List Field},
    compileFields names scopes declared referenced started params = .ok (first, fields) →
    .mk name chain publishes ∈ fields → publishes = referenced.contains name := by
  induction params with
  | nil =>
      intro scopes started first fields compiles member
      cases compiles
      cases member
  | cons param rest ih =>
      intro scopes started first fields compiles member
      rw [compileFields] at compiles
      split at compiles
      · obtain ⟨⟨steps, others⟩, inner, same⟩ := bind_eq_ok.mp compiles
        cases same
        rcases List.mem_cons.mp member with same | member
        · cases same
          rfl
        · exact ih inner member
      · obtain ⟨one, first, inner⟩ := bind_eq_ok.mp compiles
        obtain ⟨⟨steps, others⟩, second, same⟩ := bind_eq_ok.mp inner
        cases same
        exact ih second member

/-! ### Sound steps -/

/-- The handle that a step calls. -/
def Step.handle? : Step → Option Nat
  | .call handle | .define handle _ => some handle
  | _ => none

/-- **A step calls a handle that is defined**, and the fields of an object differ and publish what
is read inside the object. -/
structure Step.Sound (count : Nat) (step : Step) : Prop where
  calls : ∀ handle, step.handle? = some handle → handle < count
  distinct : ∀ fields tag, step = .object fields tag → (fields.map Field.name).Nodup
  publishes : ∀ fields tag name chain, step = .object fields tag → .mk name chain false ∈ fields →
    Field.AllEverywhere (fun inner => inner.dependency? ≠ some name) fields

theorem Param.handle_lt_length {names : List String} {name : String} {handle : Nat}
    (handled : Param.handle names name = .ok handle) : handle < names.length := by
  unfold Param.handle at handled
  split at handled
  · rename_i found
    cases handled
    exact (List.findIdx?_eq_some_iff_getElem.mp found).1
  · cases handled

/-- **The steps that the compiler makes are sound.** -/
theorem Invocation.Compiles.sound {names : List String} {scopes : List Scope}
    {invocation : Invocation} {step : Step} (compiled : invocation.Compiles names scopes step) :
    step.Sound names.length := by
  cases compiled with
  | check checks =>
      have check := checks.spec.1
      cases step with
      | object | array | call | define => cases check
      | _ => exact ⟨nofun, nofun, nofun⟩
  | object declares steps =>
      refine ⟨nofun, fun fields tag same => ?_, fun fields tag name chain same member => ?_⟩
      · cases same
        rw [Param.compileFields_names steps]
        exact Param.nodup_of_declaredFields declares
      · cases same
        have unreferenced := Param.compileFields_publishes steps member
        refine Field.everywhere_imp (fun step within depends => ?_) _
          (Param.compileFields_dependencies steps)
        have referenced := List.contains_iff_mem.mpr (within name depends)
        rw [← unreferenced] at referenced
        cases referenced
  | array => exact ⟨nofun, nofun, nofun⟩
  | definition _ handled | reference _ handled =>
      refine ⟨fun handle same => ?_, nofun, nofun⟩
      cases same
      exact Param.handle_lt_length handled

/-! ### Templates -/

namespace Template

/-- **What holds of every step that is made of an invocation of a forest holds everywhere in its
template.** -/
theorem everywhere_of_occurs {forest : List Param} {template : Template} {holds : Step → Prop}
    (compiles : ofForest forest = .ok template)
    (each : ∀ around invocation names scopes step, Param.Occurs forest around invocation →
      Invocation.Compiles names scopes invocation step → holds step) :
    Step.ChainEverywhere holds template.root := by
  obtain ⟨names, compiled⟩ := ofForest_eq_ok_iff.mp compiles
  let concerns : Invocation → Prop :=
    fun invocation => ∃ around, Param.Occurs forest around invocation
  have inherited : ∀ validator params tag child, concerns (.mk validator params tag) →
      .validator child ∈ params → concerns child := fun _ _ _ _ ⟨_, occurs⟩ member =>
        occurs.child member
  refine Param.compileChain_everywhere inherited
    (fun _ _ _ ⟨_, occurs⟩ made => each _ _ _ _ _ occurs made) _
    (fun child member => ?_) _ _ compiled.root
  exact ⟨[], .root ((List.takeWhile_prefix _).subset member)⟩

/-- **All steps of a compiled template are sound.** -/
theorem Compiles.sound {forest : List Param} {names : List String} {template : Template}
    (compiled : Compiles forest names template) :
    Step.ChainEverywhere (Step.Sound template.schemaCount) template.root := by
  have count : template.schemaCount = names.length := by
    rw [schemaCount, (mapM_eq_ok compiled.bodies).1, List.length_zipIdx]
  rw [count]
  have sound : ∀ invocation scopes step, True → Invocation.Compiles names scopes invocation step →
      Step.Sound names.length step := fun _ _ _ _ compiled => compiled.sound
  exact Param.compileChain_everywhere (fun _ _ _ _ _ _ => trivial) sound _ (fun _ _ => trivial) _ _
    compiled.root

theorem ofText_sound {text : String} {template : Template}
    (compiles : ofText text = .ok template) :
    Step.ChainEverywhere (Step.Sound template.schemaCount) template.root := by
  obtain ⟨forest, -, compiles⟩ := bind_eq_ok.mp compiles
  obtain ⟨names, compiled⟩ := ofForest_eq_ok_iff.mp compiles
  exact compiled.sound

/-- The definitions of a compiled template are the bodies of their handles. -/
theorem ofText_defines {text : String} {template : Template}
    (compiles : ofText text = .ok template) :
    ∀ definition ∈ Step.definitionsOfAll template.root,
      template.bodies[definition.1]? = some definition.2 := by
  obtain ⟨forest, -, compiles⟩ := bind_eq_ok.mp compiles
  obtain ⟨names, compiled⟩ := ofForest_eq_ok_iff.mp compiles
  exact fun _ member => compiled.body_of_definition member

end Template

end Schemata
