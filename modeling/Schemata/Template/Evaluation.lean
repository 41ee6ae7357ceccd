/-
**Validating with a template.**

Steps are evaluated by recursion on their chains, given a validator for each handle. Named schemas
may call one another, and themselves, so the validators of the handles are a fixed point: a run
whose calls go on without end has no outcome.

* `Step.validate` evaluates one step, `Step.validateChain` a chain;
* `Step.validate_related`: validators that are related at all handles are related at all steps;
* `Step.invoke` calls a named schema, and `Template.validate` evaluates a template;
* `Template.validate_eq_foldl`: what suffixes do to the compiled parts of a template, the
  combinators do to its validator.
-/

import Schemata.Template.Step
import Schemata.Validation.Report

namespace Schemata

/-! ### Bounds and tags -/

/-- **The value of a bound.** An injection is computed from the value that is validated; what is not
there is null. -/
def Bound.resolve (bindings : Bindings) (bound : Bound) (value : Json) (known : Meta) : Json :=
  match bound with
  | .literal held => held
  | .injection index => match bindings.injection? index with
    | some injected => injected.resolve value known
    | none => .null
  | .field name => (known.published? name).getD .null

/-- The payload of a tag. An error that is not supplied is null. -/
def ErrorTag.payload (bindings : Bindings) (tag : ErrorTag) (known : Meta) : Json :=
  match tag with
  | .literal text => .string text
  | .positional index => match bindings.error? index with
    | some error => error.resolve .null known
    | none => .null

/-- Fail a check. Without a tag nothing is reported. -/
def ErrorTag.fail (bindings : Bindings) (tag : Option ErrorTag) (name : String)
    (params : List Json) : Run (Option Json) :=
  Validator.fail name params fun known => tag.map fun tag => tag.payload bindings known

/-- Pass a value if a check holds, and fail the check otherwise. -/
def ErrorTag.require (bindings : Bindings) (tag : Option ErrorTag) (name : String)
    (params : List Json) (holds : Bool) (value : Json) : Run (Option Json) :=
  if holds then pure (some value) else fail bindings tag name params

/-! ### Checks -/

/-- A type check. -/
def Primitive.validate (bindings : Bindings) (tag : Option ErrorTag) (primitive : Primitive) :
    Validator := fun value =>
  match primitive.check value with
  | some value => pure (some value)
  | none => ErrorTag.fail bindings tag primitive.name []

/-- Equality with a bound, or its absence. -/
def Bound.validateEquality (bindings : Bindings) (tag : Option ErrorTag) (expected : Bool)
    (bound : Bound) : Validator := fun value => do
  let known ← Run.known
  let other := bound.resolve bindings value known
  ErrorTag.require bindings tag (if expected then "equal" else "notEqual") [other]
    (Check.equals value other = expected) value

/-- Equality with one of some bounds. -/
def Bound.validateMembership (bindings : Bindings) (tag : Option ErrorTag) (bounds : List Bound) :
    Validator := fun value => do
  let known ← Run.known
  let candidates := bounds.map fun bound => bound.resolve bindings value known
  ErrorTag.require bindings tag "oneOf" candidates (Check.isOneOf value candidates) value

/-- A match of a pattern. -/
def Pattern.validate (bindings : Bindings) (tag : Option ErrorTag) (text : String)
    (pattern : Pattern) : Validator := fun value =>
  ErrorTag.require bindings tag "regex" [.string text] (Check.matchesText pattern value) value

/-- A relation between the value, or its length, and a bound. -/
def Bound.validateRelation (bindings : Bindings) (tag : Option ErrorTag) (name : String)
    (holds : Json → Json → Bool) (relation : Relation) (bound : Bound) : Validator :=
  fun value => do
    let known ← Run.known
    let other := bound.resolve bindings value known
    ErrorTag.require bindings tag name [.string relation.symbol, other] (holds value other) value

/-! ### Containers -/

/-- **Validate items, each at its place.** An item that fails becomes null. -/
def Validator.validateItems (item : Validator) : (position : Nat) → List Json → Run (List Json)
  | _, [] => pure []
  | position, value :: rest => do
    let result ← Validator.within (.index position) item value
    (result.getD .null :: ·) <$> validateItems item (position + 1) rest

/-- Publish what a field's chain answers, if other fields need it. -/
def Validator.publishingIf (publishes : Bool) (name : String) (chain : Validator) : Validator :=
  if publishes then chain.andThen (Validator.publishing name none) else chain

mutual

/-- **Evaluate one step**, given a validator for each handle. -/
def Step.validate (bindings : Bindings) (call : Nat → Validator) : Step → Validator
  | .primitive check tag => check.validate bindings tag
  | .equality expected bound tag => bound.validateEquality bindings tag expected
  | .membership bounds tag => Bound.validateMembership bindings tag bounds
  | .matching text pattern tag => pattern.validate bindings tag text
  | .comparison relation bound tag =>
    bound.validateRelation bindings tag "compare" (Check.compares relation) relation
  | .lengthComparison relation bound tag =>
    bound.validateRelation bindings tag "length" (Check.comparesLength relation) relation
  | .object fields tag => fun value =>
    match value with
    | .object members =>
      if fields.isEmpty then pure (some (.object members))
      else
        (fun validated => some (Json.object validated)) <$>
          Field.validateAll bindings call fields members
    | _ => ErrorTag.fail bindings tag "object" []
  | .array chain tag => fun value =>
    match value with
    | .array items =>
      (fun validated => some (Json.array validated)) <$>
        (Step.validateChain bindings call chain).validateItems 0 items
    | _ => ErrorTag.fail bindings tag "array" []
  | .call handle => call handle
  | .define handle _ => call handle

/-- **Evaluate a chain**, up to the first step that fails. -/
def Step.validateChain (bindings : Bindings) (call : Nat → Validator) : List Step → Validator
  | [] => Validator.accept
  | step :: rest =>
    (step.validate bindings call).andThen (Step.validateChain bindings call rest)

/-- Evaluate a field on the value of its member. -/
def Field.validate (bindings : Bindings) (call : Nat → Validator) : Field → Validator
  | .mk name chain publishes =>
    Validator.within (.key name)
      ((Step.validateChain bindings call chain).publishingIf publishes name)

/-- **Evaluate the fields of an object.** A member that is absent is taken as null, and a field that
fails becomes null. -/
def Field.validateAll (bindings : Bindings) (call : Nat → Validator) :
    List Field → Dictionary Json → Run (Dictionary Json)
  | [], _ => pure []
  | .mk name chain publishes :: rest, members => do
    let value := (Dictionary.find? name members).getD .null
    let result ← Field.validate bindings call (.mk name chain publishes) value
    Dictionary.insert name (result.getD .null) <$> Field.validateAll bindings call rest members

end

/-! ### Congruences -/

section Congruence

variable {ι : Type} {bindings : Bindings} {call : Nat → Validator} {calls : ι → Nat → Validator}
  (congruence : Run.Congruence ι)

theorem Validator.andThen_related {first second : Validator} {firsts seconds : ι → Validator}
    (firstRelated : ∀ value, congruence.relates (first value) fun i => firsts i value)
    (secondRelated : ∀ value, congruence.relates (second value) fun i => seconds i value)
    (value : Json) :
    congruence.relates (first.andThen second value) fun i => (firsts i).andThen (seconds i) value :=
  congruence.bind (firstRelated value) fun result => match result with
    | some next => secondRelated next
    | none => congruence.refl _

theorem Validator.publishingIf_related {chain : Validator} {chains : ι → Validator}
    (publishes : Bool) (name : String)
    (related : ∀ value, congruence.relates (chain value) fun i => chains i value) (value : Json) :
    congruence.relates (chain.publishingIf publishes name value)
      fun i => (chains i).publishingIf publishes name value := by
  cases publishes with
  | false => exact related value
  | true => exact andThen_related congruence related (fun _ => congruence.refl _) value

theorem Validator.validateItems_related {item : Validator} {items : ι → Validator}
    (related : ∀ value, congruence.relates (item value) fun i => items i value)
    (values : List Json) : ∀ position,
    congruence.relates (item.validateItems position values)
      fun i => (items i).validateItems position values := by
  induction values with
  | nil => exact fun _ => congruence.refl _
  | cons value rest ih =>
      intro position
      exact congruence.bind (congruence.within _ (related value))
        fun _ => congruence.map _ (ih (position + 1))

mutual

/-- **Validators that are related at all handles are related at all steps.** -/
theorem Step.validate_related
    (related : ∀ handle value, congruence.relates (call handle value) fun i =>
      calls i handle value) :
    (step : Step) → (value : Json) →
      congruence.relates (step.validate bindings call value)
        fun i => step.validate bindings (calls i) value
  | .primitive _ _, _ | .equality _ _ _, _ | .membership _ _, _ | .matching _ _ _, _
  | .comparison _ _ _, _ | .lengthComparison _ _ _, _ => congruence.refl _
  | .object fields _, value => by
      cases value with
      | object members =>
          simp only [Step.validate]
          split
          · exact congruence.refl _
          · exact congruence.map _ (Field.validateAll_related related fields members)
      | _ => exact congruence.refl _
  | .array chain _, value => by
      cases value with
      | array items =>
          exact congruence.map _ (Validator.validateItems_related congruence
            (Step.validateChain_related related chain) items 0)
      | _ => exact congruence.refl _
  | .call handle, value => related handle value
  | .define handle _, value => related handle value

theorem Step.validateChain_related
    (related : ∀ handle value, congruence.relates (call handle value) fun i =>
      calls i handle value) :
    (chain : List Step) → (value : Json) →
      congruence.relates (Step.validateChain bindings call chain value)
        fun i => Step.validateChain bindings (calls i) chain value
  | [], _ => congruence.refl _
  | step :: rest, value =>
      Validator.andThen_related congruence (Step.validate_related related step)
        (Step.validateChain_related related rest) value

theorem Field.validate_related
    (related : ∀ handle value, congruence.relates (call handle value) fun i =>
      calls i handle value) :
    (field : Field) → (value : Json) →
      congruence.relates (field.validate bindings call value)
        fun i => field.validate bindings (calls i) value
  | .mk name chain publishes, value =>
      congruence.within _ (Validator.publishingIf_related congruence publishes name
        (Step.validateChain_related related chain) value)

theorem Field.validateAll_related
    (related : ∀ handle value, congruence.relates (call handle value) fun i =>
      calls i handle value) :
    (fields : List Field) → (members : Dictionary Json) →
      congruence.relates (Field.validateAll bindings call fields members)
        fun i => Field.validateAll bindings (calls i) fields members
  | [], _ => congruence.refl _
  | .mk name chain publishes :: rest, members =>
      congruence.bind (Field.validate_related related (.mk name chain publishes) _)
        fun _ => congruence.map _ (Field.validateAll_related related rest members)

end

end Congruence

/-! ### Handles with more outcomes -/

section Extends

variable {bindings : Bindings} {smaller larger : Nat → Validator}
  (calls : ∀ handle value, (larger handle value).Extends (smaller handle value))
include calls

/-- **Handles with more outcomes give chains with more outcomes.** -/
theorem Step.validateChain_extends (chain : List Step) (value : Json) :
    (Step.validateChain bindings larger chain value).Extends
      (Step.validateChain bindings smaller chain value) :=
  @Step.validateChain_related _ bindings larger
    (fun _ => smaller) Run.Extends.congruence calls chain value

theorem Step.validate_extends (step : Step) (value : Json) :
    (step.validate bindings larger value).Extends (step.validate bindings smaller value) :=
  @Step.validate_related _ bindings larger (fun _ => smaller) Run.Extends.congruence
    calls step value

theorem Field.validate_extends (field : Field) (value : Json) :
    (field.validate bindings larger value).Extends (field.validate bindings smaller value) :=
  @Field.validate_related _ bindings larger (fun _ => smaller) Run.Extends.congruence calls field
    value

theorem Field.validateAll_extends (fields : List Field) (members : Dictionary Json) :
    (Field.validateAll bindings larger fields members).Extends
      (Field.validateAll bindings smaller fields members) :=
  @Field.validateAll_related _ bindings larger (fun _ => smaller) Run.Extends.congruence
    calls fields members

end Extends

/-! ### Named schemas -/

section Invoke

variable (bodies : List (List Step)) (bindings : Bindings)

/-- **Invoke a named schema.** The calls inside its body are invocations of the same kind, so a
schema that calls itself without end has no outcome there. -/
def Step.invoke (handle : Nat) (value : Json) (known : Meta) : Option (Outcome (Option Json)) :=
  match bodies[handle]? with
  | some body => Step.validateChain bindings (by apply Step.invoke) body value known
  | none => some ⟨none, [], known⟩
partial_fixpoint monotonicity by
  intro smaller larger below handle value known
  have calls : ∀ handle value, Run.Extends (larger handle value) (smaller handle value) := by
    intro handle value known outcome ends
    have least := below handle value known
    generalize larger handle value known = found at least ⊢
    rw [ends] at least
    cases least
    rfl
  dsimp only
  cases bodies[handle]? with
  | none => exact .refl
  | some body =>
      dsimp only
      cases ends : Step.validateChain bindings smaller body value known with
      | none => exact .bot
      | some outcome =>
          rw [Step.validateChain_extends calls body value known outcome ends]
          exact .refl

end Invoke

/-! ### Suffixes -/

/-- **A compiled part**: a validator, given the bindings and a validator for each handle. -/
abbrev Fragment := Bindings → (Nat → Validator) → Validator

/-- **Put a suffix around a fragment.** A processor is looked up in the bindings of the run. -/
def Suffix.wrap (suffix : Suffix) (inner : Fragment) : Fragment := fun bindings call value =>
  match suffix with
  | .collecting processor =>
    some <$> Validator.collectErrors (processor.bind bindings.injection?)
      (inner bindings call value)
  | .apart => Run.apart (inner bindings call value)

/-- The fragment of the whole schema, with the suffixes around it. -/
def Template.fragment (template : Template) : Fragment :=
  template.suffixes.foldl (fun inner suffix => suffix.wrap inner)
    fun bindings call => Step.validateChain bindings call template.root

/-- **The validator of a bound template.** -/
def Template.validate (template : Template) (bindings : Bindings) : Validator :=
  template.fragment bindings (Step.invoke template.bodies bindings)

/-- The combinator of validators that a suffix stands for. -/
def Suffix.combinator (bindings : Bindings) (suffix : Suffix) (inner : Validator) : Validator :=
  match suffix with
  | .collecting processor => inner.collecting (processor.bind bindings.injection?)
  | .apart => inner.apart

/-- **A suffix around a fragment agrees with its combinator** around the validator of the
fragment. -/
theorem Suffix.wrap_eq_combinator (suffix : Suffix) (inner : Fragment) (bindings : Bindings)
    (call : Nat → Validator) :
    suffix.wrap inner bindings call = suffix.combinator bindings (inner bindings call) := by
  cases suffix <;> rfl

/-- Suffixes around a fragment agree with their combinators, however many there are. -/
theorem Suffix.foldl_wrap (suffixes : List Suffix) (inner : Fragment) (bindings : Bindings)
    (call : Nat → Validator) :
    suffixes.foldl (fun inner suffix => suffix.wrap inner) inner bindings call =
      suffixes.foldl (fun inner suffix => suffix.combinator bindings inner)
        (inner bindings call) := by
  induction suffixes generalizing inner with
  | nil => rfl
  | cons suffix rest ih => rw [List.foldl_cons, List.foldl_cons, ih, wrap_eq_combinator]

/-- **A template is validated by its chain inside the combinators of its suffixes.** -/
theorem Template.validate_eq_foldl (template : Template) (bindings : Bindings) :
    template.validate bindings =
      template.suffixes.foldl (fun inner suffix => suffix.combinator bindings inner)
        (Step.validateChain bindings (Step.invoke template.bodies bindings) template.root) :=
  Suffix.foldl_wrap _ _ _ _

/-- Without suffixes a template is validated by its chain. -/
theorem Template.validate_of_plain {template : Template} (plain : template.suffixes = [])
    (bindings : Bindings) : template.validate bindings =
      Step.validateChain bindings (Step.invoke template.bodies bindings) template.root := by
  rw [validate_eq_foldl, plain]
  rfl

end Schemata
