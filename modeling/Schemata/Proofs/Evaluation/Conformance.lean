/-
**Reports are valid exactly for the values that conform.**

A container answers although its members fail, and puts null in their places. If every step has a
tag no failure is lost that way: whatever fails reports, so a run without reports has read its value
along the schema.

* `Step.ChainConforms` is that reading: what a value has to be, and what it becomes, by the steps of
  a chain;
* `Step.validateChain_certifies`: a run that reports nothing conforms, and `ChainConforms.passes`: a
  value that conforms is answered and nothing is reported;
* `Template.Standalone.isValid_iff_conforms`: so reports are valid exactly for the values that
  conform.
-/

import Mathlib
import Schemata.Proofs.Evaluation.Independence
import Schemata.Proofs.Evaluation.Report
import Schemata.Proofs.Template.Soundness
import Schemata.Proofs.Validation.Groups

namespace Schemata

/-! ### Conformance -/

/-- **What a check makes of a value**, if it holds where nothing is published. -/
def Step.checked? (bindings : Bindings) (value : Json) : Step → Option Json
  | .primitive check _ => check.check value
  | .equality expected bound _ =>
    if Check.equals value (bound.resolve bindings value .empty) = expected then some value else none
  | .membership bounds _ =>
    if Check.isOneOf value (bounds.map fun bound => bound.resolve bindings value .empty) then
      some value
    else none
  | .matching _ pattern _ => if Check.matchesText pattern value then some value else none
  | .comparison relation bound _ =>
    if Check.compares relation value (bound.resolve bindings value .empty) then some value else none
  | .lengthComparison relation bound _ =>
    if Check.comparesLength relation value (bound.resolve bindings value .empty) then some value
    else none
  | .object _ _ | .array _ _ | .call _ | .define _ _ => none

section Conforms

variable (bodies : List (List Step)) (bindings : Bindings)

mutual

/-- **A value conforms to a step**, and becomes another by it. Definitions and calls stand for the
bodies of their handles. -/
inductive Step.Conforms : Step → Json → Json → Prop
  | check {step : Step} {value result : Json} (holds : step.checked? bindings value = some result) :
      Step.Conforms step value result
  | anyObject {members : Dictionary Json} {tag : Option ErrorTag} :
      Step.Conforms (.object [] tag) (.object members) (.object members)
  | object {fields : List Field} {tag : Option ErrorTag} {members validated : Dictionary Json}
      (declared : fields ≠ []) (conform : Field.AllConform fields members validated) :
      Step.Conforms (.object fields tag) (.object members) (.object validated)
  | array {chain : List Step} {tag : Option ErrorTag} {items validated : List Json}
      (conform : Step.ItemsConform chain items validated) :
      Step.Conforms (.array chain tag) (.array items) (.array validated)
  | call {handle : Nat} {body : List Step} {value result : Json}
      (found : bodies[handle]? = some body)
      (conforms : Step.ChainConforms body value result) : Step.Conforms (.call handle) value result
  | define {handle : Nat} {chain body : List Step} {value result : Json}
      (found : bodies[handle]? = some body) (conforms : Step.ChainConforms body value result) :
      Step.Conforms (.define handle chain) value result

/-- Each step of a chain is conformed to by what the step before makes of the value. -/
inductive Step.ChainConforms : List Step → Json → Json → Prop
  | nil {value : Json} : Step.ChainConforms [] value value
  | cons {step : Step} {rest : List Step} {value next result : Json}
      (first : Step.Conforms step value next) (others : Step.ChainConforms rest next result) :
      Step.ChainConforms (step :: rest) value result

/-- Every item conforms to a chain. -/
inductive Step.ItemsConform : List Step → List Json → List Json → Prop
  | nil {chain : List Step} : Step.ItemsConform chain [] []
  | cons {chain : List Step} {item result : Json} {items results : List Json}
      (first : Step.ChainConforms chain item result)
      (others : Step.ItemsConform chain items results) :
      Step.ItemsConform chain (item :: items) (result :: results)

/-- The members of an object conform to the chains of its fields; what is absent is null. -/
inductive Field.AllConform : List Field → Dictionary Json → Dictionary Json → Prop
  | nil {members : Dictionary Json} : Field.AllConform [] members []
  | cons {name : String} {chain : List Step} {publishes : Bool} {rest : List Field}
      {members validated : Dictionary Json} {result : Json}
      (first : Step.ChainConforms chain ((Dictionary.find? name members).getD .null) result)
      (others : Field.AllConform rest members validated) :
      Field.AllConform (.mk name chain publishes :: rest) members
        (Dictionary.insert name result validated)

end

end Conforms

/-- **A step has a tag**, if it is not a definition or a call. -/
def Step.Tagged (step : Step) : Prop :=
  step.handle? = none → step.tag?.isSome

theorem Step.tagged_of_handle {step : Step} {handle : Nat} (handled : step.handle? = some handle) :
    step.Tagged := by
  intro none
  cases none.symm.trans handled

/-- **A step that can be read by its reports**: it is sound, has a tag and depends on no field. -/
structure Step.Telling (count : Nat) (step : Step) : Prop extends step.Sound count where
  tagged : step.Tagged
  independent : ¬step.ReadsField

/-- All steps in the bodies of named schemas can be read by their reports. -/
def Template.BodiesTell (bodies : List (List Step)) : Prop :=
  ∀ (handle : Nat) (body : List Step), bodies[handle]? = some body →
    Step.ChainEverywhere (Step.Telling bodies.length) body

/-! ### Checks -/

/-- A check that is required passes its value, or reports. -/
theorem ErrorTag.require_cases (bindings : Bindings) {tag : Option ErrorTag} (tagged : tag.isSome)
    (name : String) (params : List Json) (holds : Bool) (value : Json) (known : Meta) :
    (∃ result, (if holds = true then some value else none) = some result ∧
        require bindings tag name params holds value known = some ⟨some result, [], known⟩) ∨
      (if holds = true then some value else none) = none ∧ ∃ event after,
        require bindings tag name params holds value known = some ⟨none, [event], after⟩ := by
  obtain ⟨tag, rfl⟩ := Option.isSome_iff_exists.mp tagged
  cases holds with
  | true => exact .inl ⟨value, rfl, rfl⟩
  | false => exact .inr ⟨rfl, _, _, rfl⟩

/-- **A check with a tag answers what it makes of its value, or reports.** -/
theorem Step.validate_check {bindings : Bindings} (plain : bindings.Plain) (call : Nat → Validator)
    {count : Nat} {step : Step} (telling : step.Telling count) (check : step.isCheck) (value : Json)
    (known : Meta) :
    (∃ result, step.checked? bindings value = some result ∧
        step.validate bindings call value known = some ⟨some result, [], known⟩) ∨
      step.checked? bindings value = none ∧ ∃ event after,
        step.validate bindings call value known = some ⟨none, [event], after⟩ := by
  have literal : ∀ bound ∈ step.bounds, bound.resolve bindings value known =
      bound.resolve bindings value .empty := fun bound member =>
    plain.resolve_eq (fun name same => telling.independent ⟨name, same ▸ member⟩) value known .empty
  cases step with
  | primitive primitive tag =>
      obtain ⟨tag, rfl⟩ := Option.isSome_iff_exists.mp (telling.tagged rfl)
      simp only [validate, Primitive.validate, checked?]
      cases primitive.check value with
      | some result => exact .inl ⟨result, rfl, rfl⟩
      | none => exact .inr ⟨rfl, _, _, rfl⟩
  | equality expected bound tag =>
      have cases := ErrorTag.require_cases bindings (telling.tagged rfl)
        (if expected then "equal" else "notEqual") [bound.resolve bindings value .empty]
        (Check.equals value (bound.resolve bindings value .empty) = expected) value known
      simp only [decide_eq_true_eq] at cases
      simp only [validate, Bound.validateEquality, Run.known_bind_apply, checked?,
        literal bound List.mem_cons_self]
      exact cases
  | membership bounds tag =>
      have same : (bounds.map fun bound => bound.resolve bindings value known) =
          bounds.map fun bound => bound.resolve bindings value .empty := List.map_congr_left literal
      simp only [validate, Bound.validateMembership, Run.known_bind_apply, checked?, same]
      exact ErrorTag.require_cases bindings (telling.tagged rfl) _ _ _ value known
  | matching text pattern tag =>
      exact ErrorTag.require_cases bindings (telling.tagged rfl) _ _ _ value known
  | comparison relation bound tag | lengthComparison relation bound tag =>
      simp only [validate, Bound.validateRelation, Run.known_bind_apply, checked?,
        literal bound List.mem_cons_self]
      exact ErrorTag.require_cases bindings (telling.tagged rfl) _ _ _ value known
  | object | array | call | define => cases check

/-! ### Runs without reports -/

/-- **What a run answers if it reports nothing.** -/
def Run.Certifies {α : Type} (holds : α → Prop) (run : Run α) : Prop :=
  ∀ known outcome, run known = some outcome → outcome.events = [] → holds outcome.result

namespace Run

variable {α β : Type} {holds : α → Prop} {others : β → Prop}

theorem certifies_pure {result : α} (here : holds result) : Certifies holds (pure result) := by
  intro known outcome ends silent
  cases ends
  exact here

theorem Certifies.bind {first : Run α} {next : α → Run β} (firstCertifies : first.Certifies holds)
    (nextCertifies : ∀ result, holds result → (next result).Certifies others) :
    (first >>= next).Certifies others := by
  intro known outcome ends silent
  obtain ⟨done, firstEnds, last, lastEnds, rfl⟩ := bind_eq_some.mp ends
  obtain ⟨firstSilent, lastSilent⟩ := List.append_eq_nil_iff.mp silent
  exact nextCertifies _ (firstCertifies _ _ firstEnds firstSilent) _ last lastEnds lastSilent

theorem Certifies.map {run : Run α} {change : α → β} (certifies : run.Certifies holds)
    (changes : ∀ result, holds result → others (change result)) :
    (change <$> run).Certifies others := by
  intro known outcome ends silent
  obtain ⟨done, runEnds, rfl⟩ := map_eq_some.mp ends
  exact changes _ (certifies _ _ runEnds silent)

theorem Certifies.within {segment : Segment} {run : Run α} (certifies : run.Certifies holds) :
    (Run.within segment run).Certifies holds := by
  intro known outcome ends silent
  obtain ⟨done, runEnds, rfl⟩ := within_eq_some.mp ends
  exact certifies _ done runEnds silent

/-- A failure with a tag is no run without reports. -/
theorem certifies_fail {holds : Option Json → Prop} {bindings : Bindings} {tag : Option ErrorTag}
    (tagged : tag.isSome) (name : String) (params : List Json) :
    Certifies holds (ErrorTag.fail bindings tag name params) := by
  obtain ⟨tag, rfl⟩ := Option.isSome_iff_exists.mp tagged
  intro known outcome ends silent
  cases ends
  cases silent

end Run

/-- A validator passes what is related to an answer, if it reports nothing. -/
def Validator.Certifies (relates : Json → Json → Prop) (validator : Validator) : Prop :=
  ∀ value, (validator value).Certifies fun answer =>
    ∃ result, answer = some result ∧ relates value result

section Certifies

variable {bodies : List (List Step)} {bindings : Bindings} {call : Nat → Validator}

theorem Validator.Certifies.publishingIf {relates : Json → Json → Prop} {chain : Validator}
    (certifies : chain.Certifies relates) (publishes : Bool) (name : String) :
    (chain.publishingIf publishes name).Certifies relates := by
  cases publishes with
  | false => exact certifies
  | true =>
      intro value
      refine (certifies value).bind ?_
      rintro _ ⟨result, rfl, related⟩ known outcome ends silent
      cases ends
      exact ⟨result, rfl, related⟩

theorem Validator.validateItems_certifies {chain : List Step} {item : Validator}
    (certifies : item.Certifies (Step.ChainConforms bodies bindings chain)) (items : List Json) :
    ∀ position, (item.validateItems position items).Certifies
      (Step.ItemsConform bodies bindings chain items) := by
  induction items with
  | nil => exact fun _ => Run.certifies_pure .nil
  | cons value rest ih =>
      intro position
      refine (certifies value).within.bind ?_
      rintro _ ⟨result, rfl, conforms⟩
      exact (ih (position + 1)).map fun results others => .cons conforms others

/-- The validators of the handles certify conformance to the bodies. -/
def Template.CallsCertify (bodies : List (List Step)) (bindings : Bindings)
    (call : Nat → Validator) :
    Prop :=
  ∀ handle body, bodies[handle]? = some body →
    (call handle).Certifies (Step.ChainConforms bodies bindings body)

mutual

/-- **A step that reports nothing has read its value along itself.** -/
theorem Step.validate_certifies (plain : bindings.Plain)
    (calls : Template.CallsCertify bodies bindings call) :
    (step : Step) → step.Everywhere (Step.Telling bodies.length) →
      (step.validate bindings call).Certifies (Step.Conforms bodies bindings step)
  | .object fields tag, telling => by
      intro value
      cases value with
      | object members =>
          simp only [Step.validate]
          split
          · rename_i none
            rw [List.isEmpty_iff.mp none]
            exact Run.certifies_pure ⟨_, rfl, .anyObject⟩
          · rename_i declared
            refine (Field.validateAll_certifies plain calls fields telling.2 members).map ?_
            exact fun validated conform =>
              ⟨_, rfl, .object (fun none => declared (List.isEmpty_iff.mpr none)) conform⟩
      | _ => exact Run.certifies_fail (telling.1.tagged rfl) _ _
  | .array chain tag, telling => by
      intro value
      cases value with
      | array items =>
          refine (Validator.validateItems_certifies
            (Step.validateChain_certifies plain calls chain telling.2) items 0).map ?_
          exact fun validated conform => ⟨_, rfl, .array conform⟩
      | _ => exact Run.certifies_fail (telling.1.tagged rfl) _ _
  | .call handle, telling => by
      have found := List.getElem?_eq_getElem (telling.calls handle rfl)
      intro value known outcome ends silent
      obtain ⟨result, same, conforms⟩ := calls handle _ found value known outcome ends silent
      exact ⟨result, same, .call found conforms⟩
  | .define handle chain, telling => by
      have found := List.getElem?_eq_getElem (telling.1.calls handle rfl)
      intro value known outcome ends silent
      obtain ⟨result, same, conforms⟩ := calls handle _ found value known outcome ends silent
      exact ⟨result, same, .define found conforms⟩
  | .primitive _ _, telling | .equality _ _ _, telling | .membership _ _, telling
  | .matching _ _ _, telling | .comparison _ _ _, telling | .lengthComparison _ _ _, telling => by
      intro value known outcome ends silent
      rcases Step.validate_check plain call telling rfl value known with
        ⟨result, holds, passes⟩ | ⟨-, event, after, fails⟩
      · cases passes.symm.trans ends
        exact ⟨result, rfl, .check holds⟩
      · cases fails.symm.trans ends
        cases silent

/-- **A chain that reports nothing has read its value along itself.** -/
theorem Step.validateChain_certifies (plain : bindings.Plain)
    (calls : Template.CallsCertify bodies bindings call) :
    (chain : List Step) → Step.ChainEverywhere (Step.Telling bodies.length) chain →
      (Step.validateChain bindings call chain).Certifies (Step.ChainConforms bodies bindings chain)
  | [], _ => fun value => Run.certifies_pure ⟨value, rfl, .nil⟩
  | step :: rest, telling => by
      intro value
      refine (Step.validate_certifies plain calls step telling.1 value).bind ?_
      rintro _ ⟨next, rfl, first⟩ known outcome ends silent
      obtain ⟨result, same, others⟩ :=
        Step.validateChain_certifies plain calls rest telling.2 next known outcome ends silent
      exact ⟨result, same, .cons first others⟩

theorem Field.validateAll_certifies (plain : bindings.Plain)
    (calls : Template.CallsCertify bodies bindings call) :
    (fields : List Field) → Field.AllEverywhere (Step.Telling bodies.length) fields →
      (members : Dictionary Json) →
      (Field.validateAll bindings call fields members).Certifies
        (Field.AllConform bodies bindings fields members)
  | [], _, _ => Run.certifies_pure .nil
  | .mk name chain publishes :: rest, telling, members => by
      have field : (Step.validateChain bindings call chain).Certifies _ :=
        Step.validateChain_certifies plain calls chain telling.1
      refine ((field.publishingIf publishes name) _).within.bind ?_
      rintro _ ⟨result, rfl, first⟩
      exact (Field.validateAll_certifies plain calls rest telling.2 members).map
        fun validated others => .cons first others

end

/-- Invocations of named schemas certify conformance to their bodies. -/
theorem Step.invokeWithin_certifies (plain : bindings.Plain) (telling : Template.BodiesTell bodies)
    (budget : Nat) :
    Template.CallsCertify bodies bindings (Step.invokeWithin bodies bindings budget) := by
  induction budget with
  | zero =>
      intro handle body found value known outcome ends
      cases ends
  | succ budget ih =>
      intro handle body found
      rw [Step.invokeWithin, found]
      exact Step.validateChain_certifies plain ih body (telling handle body found)

end Certifies

/-! ### Values that conform -/

/-- **A run answers a result and reports nothing**, from all metadata. -/
def Run.Passes {α : Type} (run : Run α) (result : α) : Prop :=
  ∀ known, ∃ after, run known = some ⟨result, [], after⟩

namespace Run

variable {α β : Type} {result : α} {last : β}

theorem passes_pure : (pure result : Run α).Passes result := fun known => ⟨known, rfl⟩

theorem Passes.bind {first : Run α} {next : α → Run β} (firstPasses : first.Passes result)
    (nextPasses : (next result).Passes last) : (first >>= next).Passes last := by
  intro known
  obtain ⟨between, firstEnds⟩ := firstPasses known
  obtain ⟨after, lastEnds⟩ := nextPasses between
  exact ⟨after, bind_eq_some.mpr ⟨_, firstEnds, _, lastEnds, rfl⟩⟩

theorem Passes.map {run : Run α} (change : α → β) (passes : run.Passes result) :
    (change <$> run).Passes (change result) := by
  intro known
  obtain ⟨after, runEnds⟩ := passes known
  exact ⟨after, map_eq_some.mpr ⟨_, runEnds, rfl⟩⟩

theorem Passes.within {segment : Segment} {run : Run α} (passes : run.Passes result) :
    (Run.within segment run).Passes result := by
  intro known
  obtain ⟨after, runEnds⟩ := passes (known.enter segment)
  exact ⟨after.leave, within_eq_some.mpr ⟨_, runEnds, rfl⟩⟩

end Run

section Passes

variable {bodies : List (List Step)} {bindings : Bindings}

theorem Validator.publishingIf_passes {chain : Validator} {value result : Json}
    (passes : (chain value).Passes (some result)) (publishes : Bool) (name : String) :
    (chain.publishingIf publishes name value).Passes (some result) := by
  cases publishes with
  | false => exact passes
  | true => exact passes.bind fun known => ⟨_, rfl⟩

/-- An invocation passes what its body passes. -/
theorem Step.invoke_passes {handle : Nat} {body : List Step} (found : bodies[handle]? = some body)
    {value result : Json}
    (passes : (Step.validateChain bindings (Step.invoke bodies bindings) body value).Passes
      (some result)) : Run.Passes (Step.invoke bodies bindings handle value) (some result) := by
  intro known
  rw [Step.invoke, found]
  exact passes known

mutual

/-- **A value that conforms to a step is answered, and nothing is reported.** -/
theorem Step.Conforms.passes (plain : bindings.Plain) (telling : Template.BodiesTell bodies)
    {step : Step} {value result : Json}
    (here : step.Everywhere (Step.Telling bodies.length)) :
    Step.Conforms bodies bindings step value result →
      (step.validate bindings (Step.invoke bodies bindings) value).Passes (some result)
  | .check holds => by
      have check : step.isCheck := by
        cases step with
        | object | array | call | define => cases holds
        | _ => rfl
      intro known
      have checked :=
        Step.validate_check plain (Step.invoke bodies bindings) here.here check value known
      rcases checked with ⟨answer, answers, passes⟩ | ⟨fails, -⟩
      · cases holds.symm.trans answers
        exact ⟨known, passes⟩
      · cases holds.symm.trans fails
  | .anyObject => Run.passes_pure
  | .object declared conform => by
      simp only [Step.validate]
      rw [if_neg fun none => declared (List.isEmpty_iff.mp none)]
      exact (Field.AllConform.passes plain telling here.2 conform).map _
  | .array conform => (Step.ItemsConform.passes plain telling here.2 0 conform).map _
  | .call found conforms | .define found conforms =>
      Step.invoke_passes found
        (Step.ChainConforms.passes plain telling (telling _ _ found) conforms)

/-- **A value that conforms to a chain is answered, and nothing is reported.** -/
theorem Step.ChainConforms.passes (plain : bindings.Plain) (telling : Template.BodiesTell bodies)
    {chain : List Step} {value result : Json}
    (here : Step.ChainEverywhere (Step.Telling bodies.length) chain) :
    Step.ChainConforms bodies bindings chain value result →
      (Step.validateChain bindings (Step.invoke bodies bindings) chain value).Passes (some result)
  | .nil => Run.passes_pure
  | .cons first others =>
      (Step.Conforms.passes plain telling here.1 first).bind
        (Step.ChainConforms.passes plain telling here.2 others)

theorem Step.ItemsConform.passes (plain : bindings.Plain) (telling : Template.BodiesTell bodies)
    {chain : List Step} {items results : List Json}
    (here : Step.ChainEverywhere (Step.Telling bodies.length) chain) (position : Nat) :
    Step.ItemsConform bodies bindings chain items results →
      ((Step.validateChain bindings (Step.invoke bodies bindings) chain).validateItems position
        items).Passes results
  | .nil => Run.passes_pure
  | .cons first others =>
      (Step.ChainConforms.passes plain telling here first).within.bind
        ((Step.ItemsConform.passes plain telling here (position + 1) others).map _)

theorem Field.AllConform.passes (plain : bindings.Plain) (telling : Template.BodiesTell bodies)
    {fields : List Field} {members validated : Dictionary Json}
    (here : Field.AllEverywhere (Step.Telling bodies.length) fields) :
    Field.AllConform bodies bindings fields members validated →
      (Field.validateAll bindings (Step.invoke bodies bindings) fields members).Passes validated
  | .nil => Run.passes_pure
  | .cons first others =>
      (Validator.publishingIf_passes
        (Step.ChainConforms.passes plain telling here.1 first) _ _).within.bind
        ((Field.AllConform.passes plain telling here.2 others).map _)

end

end Passes

/-! ### Templates -/

namespace Template

theorem Standalone.telling {template : Template} {bindings : Bindings}
    (standalone : template.Standalone bindings)
    (tagged : Step.ChainEverywhere Step.Tagged template.root) :
    Step.ChainEverywhere (Step.Telling template.bodies.length) template.root := by
  obtain ⟨text, compiles⟩ := standalone.compiles
  refine Step.chainEverywhere_imp (fun step here => ?_) _ (Step.chainEverywhere_and _
    (ofText_sound compiles) (Step.chainEverywhere_and _ tagged standalone.independent))
  exact ⟨here.1, here.2.1, here.2.2⟩

/-- **If every node of a schema has a tag, reports are valid exactly for the values that conform**,
and the value of a valid report is what the value that was validated becomes. -/
theorem Standalone.isValid_iff_conforms {template : Template} {bindings : Bindings}
    (standalone : template.Standalone bindings)
    (tagged : Step.ChainEverywhere Step.Tagged template.root) {value : Json} {report : Report}
    (ends : Report.of (template.validate bindings) value = some report) :
    (report.isValid ↔
      ∃ result, Step.ChainConforms template.bodies bindings template.root value result) ∧
    ∀ result, Step.ChainConforms template.bodies bindings template.root value result →
      report.value = some result := by
  obtain ⟨text, compiles⟩ := standalone.compiles
  have telling := standalone.telling tagged
  have bodies : BodiesTell template.bodies := fun handle body found =>
    (ofText_coherent compiles).body_everywhere telling found
  obtain ⟨outcome, rootEnds, rfl⟩ := Option.map_eq_some_iff.mp ends
  rw [validate_of_plain standalone.unsuffixed] at rootEnds
  have passes : ∀ result, Step.ChainConforms template.bodies bindings template.root value result →
      (Report.ofOutcome outcome).isValid ∧ (Report.ofOutcome outcome).value = some result := by
    intro result conforms
    obtain ⟨after, passed⟩ := conforms.passes standalone.plain bodies telling .empty
    cases passed.symm.trans rootEnds
    exact ⟨rfl, rfl⟩
  have conforming : (Report.ofOutcome outcome).isValid →
      ∃ result, Step.ChainConforms template.bodies bindings template.root value result := by
    intro valid
    have silent : outcome.events = [] := by
      have failures := (Bool.and_eq_true _ _ ▸ valid).2
      exact List.map_eq_nil_iff.mp (List.isEmpty_iff.mp failures)
    obtain ⟨budget, within⟩ := Step.validateChain_eq_some_iff.mp rootEnds
    obtain ⟨result, -, conforms⟩ := Step.validateChain_certifies standalone.plain
      (Step.invokeWithin_certifies standalone.plain bodies budget) _ telling _ _ _ within silent
    exact ⟨result, conforms⟩
  refine ⟨⟨conforming, ?_⟩, fun result conforms => (passes result conforms).2⟩
  rintro ⟨result, conforms⟩
  exact (passes result conforms).1

/-- A tree conforms to the schema of trees, and its texts become truth values. -/
theorem isValid_tree :
    ∃ template, ofText "#tree(@o(value: @b!'b', children: @a(##tree)!'a')!'o')" = .ok template ∧
      template.Standalone .empty ∧ Step.ChainEverywhere Step.Tagged template.root ∧
      ∃ report, Report.of (template.validate .empty)
          (.object
            [("children", .array [.object [("children", .array []), ("value", .string "1")]]),
              ("value", .bool false)]) = some report ∧
        (report.isValid ↔ ∃ result, Step.ChainConforms template.bodies .empty template.root
          (.object
            [("children", .array [.object [("children", .array []), ("value", .string "1")]]),
              ("value", .bool false)]) result) ∧
        report.isValid := by
  let body : List Step :=
    [.object [.mk "value" [.primitive .boolean (some (.literal "b"))] false,
      .mk "children" [.array [.call 0] (some (.literal "a"))] false] (some (.literal "o"))]
  let template : Template := ⟨[.define 0 body], [body], []⟩
  let leaf (value : Json) : Json := .object [("children", .array []), ("value", value)]
  let tree (child value : Json) : Json := .object [("children", .array [child]), ("value", value)]
  have compiles : ofText "#tree(@o(value: @b!'b', children: @a(##tree)!'a')!'o')" =
      .ok template := by cbv
  have independent : Step.ChainEverywhere (fun step => ¬step.ReadsField) template.root := by
    refine ⟨⟨?_, ⟨?_, ⟨?_, trivial⟩, ⟨⟨?_, ?_, trivial⟩, trivial⟩, trivial⟩, trivial⟩, trivial⟩ <;>
      rintro ⟨name, member⟩ <;> cases member
  have tagged : Step.ChainEverywhere Step.Tagged template.root :=
    ⟨⟨Step.tagged_of_handle rfl, ⟨fun _ => rfl, ⟨fun _ => rfl, trivial⟩,
      ⟨⟨fun _ => rfl, Step.tagged_of_handle rfl, trivial⟩, trivial⟩, trivial⟩, trivial⟩, trivial⟩
  have standalone : template.Standalone .empty :=
    ⟨⟨_, compiles⟩, rfl, independent, Bindings.empty_plain⟩
  have ends : template.validate .empty (tree (leaf (.string "1")) (.bool false)) .empty =
      some ⟨some (tree (leaf (.bool true)) (.bool false)), [], .empty⟩ :=
    Step.validateChain_eq_some_iff.mpr ⟨3, by cbv⟩
  have reports := congrArg (Option.map Report.ofOutcome) ends
  exact ⟨template, compiles, standalone, tagged, _, reports,
    (standalone.isValid_iff_conforms tagged reports).1, rfl⟩

end Template

end Schemata
