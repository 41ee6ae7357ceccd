/-
**Error tags and bound errors only influence what is reported.**

A check that fails leaves its name and its parameters in the metadata, whether it has an error tag
or not. So schemas that differ in error tags end alike, under bindings that differ in errors, but
for their reports.

* `Invocation.untagged` takes the error tags away;
* `Invocation.varies_of_untagged`: without them, what is the same varies in error tags only;
* `Step.retag_matches`: a check has the same result and leaves the same metadata with every error
  tag;
* `Template.validate_of_untagged`: so does a schema without an error suffix.
-/

import Schemata.Proofs.Compilation.Counterpart

namespace Schemata

/-! ### Forests without error tags -/

mutual

/-- **An invocation without error tags.** Definitions of schemas and references to them keep
theirs. -/
def Invocation.untagged : Invocation → Invocation
  | .mk validator params tag =>
    .mk validator (Param.untaggedAll params) (if validator ∈ schemaKeywords then tag else none)

/-- Parameters without error tags. -/
def Param.untaggedAll : List Param → List Param
  | [] => []
  | param :: rest => param.untagged :: Param.untaggedAll rest

/-- A parameter without error tags. -/
def Param.untagged : Param → Param
  | .validator invocation => .validator invocation.untagged
  | param => param

end

/-- **Error tags may differ**, and nothing else. -/
def Invocation.Variation.ofTags : Invocation.Variation where
  exchanges _ _ := False
  retags _ _ := True
  orders _ _ := False

mutual

/-- **Invocations that are the same without error tags** vary in error tags only. -/
theorem Invocation.varies_of_untagged : (first : Invocation) → ∀ second,
    first.untagged = second.untagged → Invocation.Varies .ofTags first second
  | .mk validator params tag => by
      rintro ⟨_, others, other⟩ same
      rw [Invocation.untagged, Invocation.untagged, Invocation.mk.injEq] at same
      obtain ⟨rfl, inside, tags⟩ := same
      refine .kept (Param.allVary_of_untagged params others inside) trivial fun schema => ?_
      rwa [if_pos schema, if_pos schema] at tags

theorem Param.allVary_of_untagged : (params : List Param) → ∀ others,
    Param.untaggedAll params = Param.untaggedAll others → Param.AllVary .ofTags params others
  | [] => by
      intro others same
      cases others with
      | nil => exact .nil
      | cons => cases same
  | param :: rest => by
      intro others same
      cases others with
      | nil => cases same
      | cons other more =>
          obtain ⟨here, behind⟩ := List.cons.inj same
          exact .cons (Param.varies_of_untagged param other here)
            (Param.allVary_of_untagged rest more behind)

theorem Param.varies_of_untagged : (param : Param) → ∀ other,
    param.untagged = other.untagged → Param.Varies .ofTags param other
  | .validator invocation => by
      intro other same
      cases other with
      | validator second =>
          exact .invocation
            (Invocation.varies_of_untagged invocation second (Param.validator.inj same))
      | _ => cases same
  | .token _ | .text _ | .injection _ | .comparison _ => by
      intro other same
      cases other <;> cases same
      exact .plain rfl

end

/-! ### Checks with other tags -/

namespace Step

/-- **Results and metadata are compared**, and reports are not. -/
def silent : Run.Simulation :=
  .ofReports (fun _ _ => True) trivial (fun _ _ => trivial) (fun _ _ => trivial)

variable {bindings others : Bindings}

/-- A check fails alike with every error tag. -/
theorem fail_matches (tag other : Option ErrorTag) (name : String) (params : List Json) :
    silent.Matches (ErrorTag.fail bindings tag name params)
      (ErrorTag.fail others other name params) := by
  rintro known _ rfl
  cases tag <;> cases other <;> exact .some ⟨rfl, trivial, rfl⟩

theorem require_matches (tag other : Option ErrorTag) (name : String) (params : List Json)
    (holds : Bool) (value : Json) :
    silent.Matches (ErrorTag.require bindings tag name params holds value)
      (ErrorTag.require others other name params holds value) := by
  cases holds with
  | true => exact Run.Simulation.matches_pure _
  | false => exact fail_matches tag other name params

/-- A run that reads the metadata matches another one that does. -/
theorem known_matches {α : Type} {next further : Meta → Run α}
    (nextMatches : ∀ known, silent.Matches (next known) (further known)) :
    silent.Matches (Run.known >>= next) (Run.known >>= further) := by
  have knownMatches : silent.Matches Run.known Run.known := by
    rintro known _ rfl
    exact .some ⟨rfl, trivial, rfl⟩
  exact knownMatches.bind nextMatches

/-- Bounds do not depend on bound errors. -/
theorem resolve_eq (injections : bindings.injections = others.injections) (bound : Bound) :
    bound.resolve bindings = bound.resolve others := by
  cases bound with
  | injection index =>
      funext value known
      rw [Bound.resolve, Bound.resolve, Bindings.injection?, Bindings.injection?, injections]
  | _ => rfl

/-- **A check has the same result and leaves the same metadata** with every error tag and under all
bound errors. -/
theorem retag_matches (injections : bindings.injections = others.injections) {step : Step}
    (check : step.isCheck) (tag other : Option ErrorTag) (call further : Nat → Validator)
    (value : Json) :
    silent.Matches ((step.retag tag).validate bindings call value)
      ((step.retag other).validate others further value) := by
  have resolves := resolve_eq injections
  cases step with
  | primitive check =>
      show silent.Matches (Primitive.validate bindings tag _ value)
          (Primitive.validate others other _ value)
      unfold Primitive.validate
      split
      · exact Run.Simulation.matches_pure _
      · exact fail_matches tag other _ _
  | equality expected bound =>
      refine known_matches fun known => ?_
      rw [resolves bound]
      exact require_matches tag other _ _ _ _
  | membership bounds =>
      refine known_matches fun known => ?_
      simp only [resolves]
      exact require_matches tag other _ _ _ _
  | matching text pattern => exact require_matches tag other _ _ _ _
  | comparison relation bound | lengthComparison relation bound =>
      refine known_matches fun known => ?_
      rw [resolves bound]
      exact require_matches tag other _ _ _ _
  | object | array | call | define => cases check

/-- **Steps that differ in error tags match**, if the handles do. -/
theorem holds_ofTags (injections : bindings.injections = others.injections)
    {names further : List String} {call other : Nat → Validator}
    (handlesMatch : ∀ handle changed,
      (Invocation.Variation.ofTags.likeness names further).handles handle changed →
      ∀ value, silent.Matches (call handle value) (other changed value)) :
    (Invocation.Variation.ofTags.likeness names further).Holds silent bindings others
      call other where
  checks := by
    rintro _ _ ⟨step, tag, changed, check, -, rfl, rfl⟩ value
    exact retag_matches injections check tag changed call other value
  tags _ := fail_matches _ _
  handles := fun {handle changed} => handlesMatch handle changed
  orders := nofun

end Step

/-! ### Schemas with other tags -/

/-- Chains that are the same without error tags are counterparts. -/
theorem Param.counterparts_of_untagged {chain other : List Param}
    (vary : AllVary .ofTags chain other) :
    Counterparts .ofTags chain other := by
  have names := schemaNames_perm (fun _ _ => False.elim) chain other vary
  refine ⟨vary, fun _ => trivial, ⟨names.subset, nofun, nofun⟩, names, ?_⟩
  rintro _ _ ⟨_, _, _, ⟨⟩, _⟩

namespace Template

/-- **Error tags and bound errors influence only what is reported.** Two schemas without an error
suffix that differ in error tags, under bindings with the same injections, have the same result and
leave the same metadata, on every value and from all metadata. -/
theorem validate_of_untagged {first second : String} {forest changed : List Param}
    {template other : Template} (parses : Grammar.parse first = .ok forest)
    (parsesOther : Grammar.parse second = .ok changed)
    (same : Param.untaggedAll (Param.unplaced forest) = Param.untaggedAll (Param.unplaced changed))
    (compiles : ofText first = .ok template) (compilesOther : ofText second = .ok other)
    (apart : template.collectsErrors = false) {bindings others : Bindings}
    (injections : bindings.injections = others.injections) (value : Json) (known : Meta) :
    (template.validate bindings value known).map (fun outcome => (outcome.result, outcome.known)) =
      (other.validate others value known).map (fun outcome => (outcome.result, outcome.known)) := by
  have keeps : Invocation.Variation.KeepsSuffixes .ofTags := fun never => never.elim
  have vary := Param.allVary_of_untagged _ _ same
  obtain ⟨_, made, suffixes, -, names, further, alike⟩ :=
    exists_alike parses parsesOther compiles keeps vary
    fun _ _ _ _ _ _ _ vary => Param.counterparts_of_untagged vary
  cases compilesOther.symm.trans made
  have templatesMatch := @Alike.validate_matches _ _ _ _ _ _ (fun _ => True) alike suffixes apart
    (fun _ => trivial) fun _ _ _ handlesMatch => Step.holds_ofTags injections handlesMatch
  have runs := templatesMatch value known known rfl
  generalize template.validate bindings value known = run, other.validate others value known =
    changed at runs
  cases runs with
  | none => rfl
  | some similar => exact congrArg some (Prod.ext similar.result similar.known)

/-- Trees with two error tags, and with another one in one of the places. -/
theorem validate_of_untagged_trees : ∃ template other,
    ofText "#t(@o(l: @a(##t)!'a')!'o')" = .ok template ∧
      ofText "#t(@o(l: @a(##t))!'tree')" = .ok other ∧
    ∀ value known,
      (template.validate .empty value known).map (fun outcome => (outcome.result, outcome.known)) =
        (other.validate ⟨[], [.plain .null]⟩ value known).map
          fun outcome => (outcome.result, outcome.known) := by
  let word (name : String) : Lexeme := .ofKind .identifier name 0
  let reference : Param := .validator (.mk "reference" [.token (word "t")] none)
  let tree (inner : Option ErrorTag) (outer : String) : List Param :=
    [.validator (.mk "define" [.token (word "t"), .validator (.mk "object"
      [.token (word "l"), .validator (.mk "array" [reference] inner)]
      (some (.literal outer)))] none)]
  let steps (inner : Option ErrorTag) (outer : String) : List Step :=
    [.object [.mk "l" [.array [.call 0] inner] false] (some (.literal outer))]
  have forests : (Grammar.parse "#t(@o(l: @a(##t)!'a')!'o')").map Param.unplaced =
      .ok (tree (some (.literal "a")) "o") := by cbv
  have forestsOther : (Grammar.parse "#t(@o(l: @a(##t))!'tree')").map Param.unplaced =
      .ok (tree none "tree") := by cbv
  have compiles : ofText "#t(@o(l: @a(##t)!'a')!'o')" = .ok
      ⟨[.define 0 (steps (some (.literal "a")) "o")], [steps (some (.literal "a")) "o"], []⟩ :=
    (ofText_of_unplaced forests).trans (by cbv)
  have compilesOther : ofText "#t(@o(l: @a(##t))!'tree')" = .ok
      ⟨[.define 0 (steps none "tree")], [steps none "tree"], []⟩ :=
    (ofText_of_unplaced forestsOther).trans (by cbv)
  obtain ⟨forest, parses, whole⟩ := LexicalUnit.map_eq_ok.mp forests
  obtain ⟨changed, parsesOther, wholeOther⟩ := LexicalUnit.map_eq_ok.mp forestsOther
  have same :
      Param.untaggedAll (Param.unplaced forest) = Param.untaggedAll (Param.unplaced changed) := by
    rw [whole, wholeOther]
    rfl
  exact ⟨_, _, compiles, compilesOther,
    validate_of_untagged parses parsesOther same compiles compilesOther rfl rfl⟩

end Template

end Schemata
