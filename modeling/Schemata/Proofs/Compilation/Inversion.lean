/-
**What a compiled step is made of.**

`Invocation.Compiles` lists the ways in which an invocation becomes a step: a check, an object, an
array, a definition or a reference. What holds of all compiled steps is proved by recursion on the
invocations, with one case a way.

* `Invocation.compiles_of_ok`: the compiler knows no other ways;
* `Param.declaredFields_eq` and `Param.compileFields_names`: the fields that are compiled are those
  that are declared.
-/

import Schemata.Compilation.Compile

namespace Schemata

/-- A sequence succeeds if both parts do. -/
theorem bind_eq_ok {ε α β : Type} {first : Except ε α} {next : α → Except ε β} {result : β} :
    (first >>= next) = .ok result ↔ ∃ done, first = .ok done ∧ next done = .ok result := by
  cases first with
  | error fault => exact ⟨nofun, nofun⟩
  | ok done => exact ⟨fun same => ⟨done, rfl, same⟩, fun ⟨_, rfl, same⟩ => same⟩

/-- The results of a list are those of its elements, each in its place. -/
theorem mapM_eq_ok {ε α β : Type} {make : α → Except ε β} {sources : List α} :
    ∀ {results : List β}, sources.mapM make = .ok results →
      results.length = sources.length ∧
      ∀ (place : Nat) (result : β), results[place]? = some result →
        ∃ source, sources[place]? = some source ∧ make source = .ok result := by
  induction sources with
  | nil =>
      intro results makes
      cases makes
      exact ⟨rfl, nofun⟩
  | cons source rest ih =>
      intro results makes
      rw [List.mapM_cons] at makes
      obtain ⟨result, first, inner⟩ := bind_eq_ok.mp makes
      obtain ⟨others, second, same⟩ := bind_eq_ok.mp inner
      cases same
      obtain ⟨length, each⟩ := ih second
      refine ⟨congrArg Nat.succ length, fun place found here => ?_⟩
      cases place with
      | zero =>
          cases here
          exact ⟨source, rfl, first⟩
      | succ place => exact each place found here

/-- A step that checks its value, and holds no chains. -/
def Step.isCheck : Step → Bool
  | .object _ _ | .array _ _ | .call _ | .define _ _ => false
  | _ => true

/-! ### Checks -/

section Checks

variable {scopes : List Scope} {validator : String} {params : List Param} {tag : Option ErrorTag}
  {step : Step}

/-- The compiler accepts the field that a comparison depends on. -/
theorem Step.ofComparison_spec {ofLength : Bool}
    (compiles : Step.ofComparison scopes validator ofLength params tag = .ok step) :
    step.isCheck ∧ ∀ name, step.dependency? = some name → Scope.resolve name scopes = .ok () := by
  unfold Step.ofComparison at compiles
  split at compiles
  · rename_i relation operand
    obtain ⟨bound, bounds, same⟩ := bind_eq_ok.mp compiles
    have accepted : ∀ name, bound = .field name → Scope.resolve name scopes = .ok () := by
      rintro name rfl
      unfold Bound.ofOperand at bounds
      split at bounds
      · cases bounds
      · split at bounds <;> cases bounds
      · cases bounds
      · obtain ⟨_, resolves, same⟩ := bind_eq_ok.mp bounds
        cases same
        exact resolves
    cases ofLength <;> cases same <;> refine ⟨rfl, fun name depends => accepted name ?_⟩ <;>
      cases bound <;> cases depends <;> rfl
  · cases compiles

/-- The other checks depend on no field. -/
theorem Step.check_spec
    (compiles : (∃ primitive : Primitive, primitive.compile params tag = .ok step) ∨
      (∃ validator expected, Step.ofEquality validator expected params tag = .ok step) ∨
      Step.ofMembership params tag = .ok step ∨ Step.ofMatching params tag = .ok step) :
    step.isCheck ∧ step.dependency? = none := by
  rcases compiles with ⟨primitive, compiles⟩ | ⟨validator, expected, compiles⟩ | compiles | compiles
  · unfold Primitive.compile at compiles
    split at compiles <;> cases compiles
    exact ⟨rfl, rfl⟩
  · unfold Step.ofEquality at compiles
    split at compiles
    · obtain ⟨bound, -, same⟩ := bind_eq_ok.mp compiles
      cases same
      exact ⟨rfl, rfl⟩
    · cases compiles
  · obtain ⟨bounds, -, same⟩ := bind_eq_ok.mp compiles
    split at same <;> cases same
    exact ⟨rfl, rfl⟩
  · unfold Step.ofMatching at compiles
    split at compiles
    · split at compiles <;> cases compiles
      exact ⟨rfl, rfl⟩
    · cases compiles

end Checks

/-! ### Invocations -/

/-- **How an invocation becomes a check.** Only comparisons depend on the objects around them. -/
inductive Invocation.Checks (scopes : List Scope) : Invocation → Step → Prop
  | primitive {validator : String} {params : List Param} {tag : Option ErrorTag} {step : Step}
      {primitive : Primitive} (named : Primitive.ofName? validator = some primitive)
      (compiles : primitive.compile params tag = .ok step) :
      Checks scopes (.mk validator params tag) step
  | equality {validator : String} {params : List Param} {tag : Option ErrorTag} {step : Step}
      (equates : validator = "equal" ∨ validator = "notEqual")
      (compiles : Step.ofEquality validator (validator = "equal") params tag = .ok step) :
      Checks scopes (.mk validator params tag) step
  | membership {params : List Param} {tag : Option ErrorTag} {step : Step}
      (compiles : Step.ofMembership params tag = .ok step) :
      Checks scopes (.mk "oneOf" params tag) step
  | matching {params : List Param} {tag : Option ErrorTag} {step : Step}
      (compiles : Step.ofMatching params tag = .ok step) :
      Checks scopes (.mk "regex" params tag) step
  | comparison {validator : String} {params : List Param} {tag : Option ErrorTag} {step : Step}
      (compares : validator = "compare" ∨ validator = "length")
      (compiles : Step.ofComparison scopes validator (validator = "length") params tag = .ok step) :
      Checks scopes (.mk validator params tag) step

namespace Invocation.Checks

variable {scopes : List Scope} {invocation : Invocation} {step : Step}

/-- What becomes a check is one, and the fields that it depends on are accepted. -/
theorem spec (checks : invocation.Checks scopes step) :
    step.isCheck ∧ ∀ name, step.dependency? = some name → Scope.resolve name scopes = .ok () := by
  have plain : step.isCheck ∧ step.dependency? = none →
      step.isCheck ∧ ∀ name, step.dependency? = some name → Scope.resolve name scopes = .ok () :=
    fun ⟨check, independent⟩ =>
      ⟨check, fun name depends => nomatch independent.symm.trans depends⟩
  cases checks with
  | primitive _ compiles => exact plain (Step.check_spec (.inl ⟨_, compiles⟩))
  | equality _ compiles => exact plain (Step.check_spec (.inr (.inl ⟨_, _, compiles⟩)))
  | membership compiles => exact plain (Step.check_spec (.inr (.inr (.inl compiles))))
  | matching compiles => exact plain (Step.check_spec (.inr (.inr (.inr compiles))))
  | comparison _ compiles => exact Step.ofComparison_spec compiles

end Invocation.Checks

/-- **How an invocation becomes a step.** -/
inductive Invocation.Compiles (names : List String) (scopes : List Scope) : Invocation → Step → Prop
  | check {invocation : Invocation} {step : Step} (checks : invocation.Checks scopes step) :
      Compiles names scopes invocation step
  | object {params : List Param} {tag : Option ErrorTag} {declared : List String}
      {first : List Step} {fields : List Field}
      (declares : Param.declaredFields params = .ok declared)
      (compiles : Param.compileFields names scopes declared
        (Param.referencedFields params) 0 params = .ok (first, fields)) :
      Compiles names scopes (.mk "object" params tag) (.object fields tag)
  | array {params : List Param} {tag : Option ErrorTag} {chain : List Step}
      (invocations : Param.areInvocations params = true)
      (compiles : Param.compileChain names scopes params = .ok chain) :
      Compiles names scopes (.mk "array" params tag) (.array chain tag)
  | definition {param : Param} {rest : List Param} {name : String} {handle : Nat}
      {chain : List Step} (named : Param.schemaName "define" [param] = .ok name)
      (handled : Param.handle names name = .ok handle)
      (nonempty : rest ≠ []) (invocations : Param.areInvocations rest = true)
      (compiles : Param.compileChain names scopes rest = .ok chain) :
      Compiles names scopes (.mk "define" (param :: rest) none) (.define handle chain)
  | reference {params : List Param} {name : String} {handle : Nat}
      (named : Param.schemaName "reference" params = .ok name)
      (handled : Param.handle names name = .ok handle) :
      Compiles names scopes (.mk "reference" params none) (.call handle)

/-- The name of a schema in front of its chain makes no step. -/
theorem Param.compileChain_of_named {names : List String} {scopes : List Scope}
    {validator name : String} {param : Param} {rest : List Param}
    (named : schemaName validator [param] = .ok name) :
    compileChain names scopes (param :: rest) = compileChain names scopes rest := by
  cases param with
  | token lexeme =>
      rw [compileChain, compileOne]
      · cases compileChain names scopes rest <;> rfl
      · exact nofun
  | _ => cases named

theorem Invocation.compiles_of_compileDefinition {names : List String} {scopes : List Scope}
    {params : List Param} {step : Step}
    (compiles : Param.compileDefinition names scopes params = .ok step) :
    Compiles names scopes (.mk "define" params none) step := by
  cases params with
  | nil => cases compiles
  | cons param rest =>
      rw [Param.compileDefinition] at compiles
      obtain ⟨name, named, inner⟩ := bind_eq_ok.mp compiles
      obtain ⟨handle, handled, inner⟩ := bind_eq_ok.mp inner
      split at inner
      · cases inner
      · rename_i whole
        obtain ⟨nonempty, invocations⟩ : rest ≠ [] ∧ Param.areInvocations rest = true := by
          simpa using whole
        obtain ⟨chain, steps, same⟩ := bind_eq_ok.mp inner
        cases same
        exact .definition named handled nonempty invocations steps

/-- **The compiler makes steps in no other way.** -/
theorem Invocation.compiles_of_ok {names : List String} {scopes : List Scope}
    {invocation : Invocation} {step : Step}
    (compiles : invocation.compile names scopes = .ok step) :
    invocation.Compiles names scopes step := by
  obtain ⟨validator, params, tag⟩ := invocation
  rw [compile] at compiles
  cases primitive : Primitive.ofName? validator with
  | some found =>
      rw [primitive] at compiles
      exact .check (.primitive primitive compiles)
  | none =>
  rw [primitive] at compiles
  dsimp only at compiles
  by_cases equal : validator = "equal"
  · subst equal
    exact .check (.equality (.inl rfl) compiles)
  rw [if_neg equal] at compiles
  by_cases notEqual : validator = "notEqual"
  · subst notEqual
    exact .check (.equality (.inr rfl) compiles)
  rw [if_neg notEqual] at compiles
  by_cases oneOf : validator = "oneOf"
  · subst oneOf
    exact .check (.membership compiles)
  rw [if_neg oneOf] at compiles
  by_cases regex : validator = "regex"
  · subst regex
    exact .check (.matching compiles)
  rw [if_neg regex] at compiles
  by_cases compared : validator = "compare"
  · subst compared
    exact .check (.comparison (.inl rfl) compiles)
  rw [if_neg compared] at compiles
  by_cases length : validator = "length"
  · subst length
    exact .check (.comparison (.inr rfl) compiles)
  rw [if_neg length] at compiles
  by_cases object : validator = "object"
  · rw [if_pos object] at compiles
    subst object
    obtain ⟨declared, declares, inner⟩ := bind_eq_ok.mp compiles
    obtain ⟨⟨first, fields⟩, steps, same⟩ := bind_eq_ok.mp inner
    cases same
    exact .object declares steps
  rw [if_neg object] at compiles
  by_cases array : validator = "array"
  · rw [if_pos array] at compiles
    subst array
    by_cases invocations : Param.areInvocations params = true
    · rw [if_pos invocations] at compiles
      obtain ⟨chain, steps, same⟩ := bind_eq_ok.mp compiles
      cases same
      exact .array invocations steps
    · rw [if_neg invocations] at compiles
      cases compiles
  rw [if_neg array] at compiles
  by_cases define : validator = "define"
  · rw [if_pos define] at compiles
    subst define
    cases tag with
    | some tag => cases compiles
    | none => exact compiles_of_compileDefinition compiles
  rw [if_neg define] at compiles
  by_cases reference : validator = "reference"
  · rw [if_pos reference] at compiles
    subst reference
    cases tag with
    | some tag => cases compiles
    | none =>
        obtain ⟨name, named, inner⟩ := bind_eq_ok.mp compiles
        obtain ⟨handle, handled, same⟩ := bind_eq_ok.mp inner
        cases same
        exact .reference named handled
  rw [if_neg reference] at compiles
  by_cases suffix : (Invocation.mk validator params tag).isSuffix = true
  · rw [if_pos suffix] at compiles
    cases compiles
  · rw [if_neg suffix] at compiles
    cases compiles

/-! ### Fields -/

namespace Param

theorem countFields_eq {params : List Param} : ∀ {found result : List (String × Nat)},
    countFields found params = .ok result →
    result.map Prod.fst = (found.map Prod.fst).reverse ++ params.filterMap fieldName? := by
  induction params with
  | nil =>
      intro found result counts
      cases counts
      simp
  | cons param rest ih =>
      intro found result counts
      cases param with
      | validator invocation =>
          cases found with
          | nil => cases counts
          | cons field others =>
              rw [countFields] at counts
              have same := ih counts
              exact same
      | injection _ | comparison _ => cases counts
      | token _ | text _ =>
          simp only [countFields] at counts
          rw [List.filterMap_cons]
          split at counts
          · rename_i name
            rw [name, ih counts]
            simp
          · rename_i none
            rw [none]
            exact ih counts

/-- **The declared fields are those that the parameters name.** -/
theorem declaredFields_eq {params : List Param} {declared : List String}
    (declares : declaredFields params = .ok declared) :
    declared = params.filterMap fieldName? := by
  obtain ⟨fields, counts, inner⟩ := bind_eq_ok.mp declares
  obtain ⟨_, -, same⟩ := bind_eq_ok.mp inner
  cases same
  simpa using countFields_eq counts

/-- **The compiled fields are those that the parameters name.** -/
theorem compileFields_names {names : List String} {scopes : List Scope}
    {declared referenced : List String} {params : List Param} :
    ∀ {started : Nat} {first : List Step} {fields : List Field},
    compileFields names scopes declared referenced started params = .ok (first, fields) →
    fields.map Field.name = params.filterMap fieldName? := by
  induction params with
  | nil =>
      intro started first fields compiles
      cases compiles
      rfl
  | cons param rest ih =>
      intro started first fields compiles
      rw [List.filterMap_cons]
      rw [compileFields] at compiles
      split at compiles
      · rename_i name named
        obtain ⟨⟨steps, others⟩, inner, same⟩ := bind_eq_ok.mp compiles
        cases same
        rw [named]
        exact congrArg (name :: ·) (ih inner)
      · rename_i unnamed
        obtain ⟨_, -, inner⟩ := bind_eq_ok.mp compiles
        obtain ⟨⟨steps, others⟩, inner, same⟩ := bind_eq_ok.mp inner
        cases same
        rw [unnamed]
        exact ih inner

end Param

/-! ### Whole schemas -/

namespace Template

/-- **What a forest needs to have a template**, given the names of its schemas. -/
structure Compiles (forest : List Param) (names : List String) (template : Template) : Prop where
  invocations : Param.areInvocations forest
  trailing : Param.checkSuffixes (forest.dropWhile fun param => !param.isSuffix) = .ok ()
  nonempty : forest.takeWhile (fun param => !param.isSuffix) ≠ []
  declares : Param.declareAll [] forest = .ok names
  root : Param.compileChain names [] (forest.takeWhile fun param => !param.isSuffix) =
    .ok template.root
  bodies : names.zipIdx.mapM (fun (name, handle) =>
    bodyOf (Step.definitionsOfAll template.root) handle name) = .ok template.bodies
  suffixes : (forest.dropWhile fun param => !param.isSuffix).mapM Param.compileSuffix =
    .ok template.suffixes

theorem ofForest_eq_ok_iff {forest : List Param} {template : Template} :
    ofForest forest = .ok template ↔ ∃ names, Compiles forest names template := by
  constructor
  · intro compiles
    unfold ofForest at compiles
    split at compiles
    · cases compiles
    · rename_i invocations
      obtain ⟨_, trailing, compiles⟩ := bind_eq_ok.mp compiles
      dsimp only at compiles
      split at compiles
      · cases compiles
      · rename_i nonempty
        obtain ⟨names, declares, compiles⟩ := bind_eq_ok.mp compiles
        obtain ⟨root, chain, compiles⟩ := bind_eq_ok.mp compiles
        obtain ⟨bodies, found, compiles⟩ := bind_eq_ok.mp compiles
        obtain ⟨suffixes, behind, same⟩ := bind_eq_ok.mp compiles
        cases same
        exact ⟨names, by simpa using invocations, trailing, by simpa using nonempty,
          declares, chain, found, behind⟩
  · rintro ⟨names, invocations, trailing, nonempty, declares, root, bodies, suffixes⟩
    unfold ofForest
    rw [invocations]
    simp only [Bool.not_true, Bool.false_eq_true, if_false]
    refine bind_eq_ok.mpr ⟨_, trailing, ?_⟩
    rw [if_neg (by simpa using nonempty)]
    refine bind_eq_ok.mpr ⟨_, declares, bind_eq_ok.mpr ⟨_, root, ?_⟩⟩
    exact bind_eq_ok.mpr ⟨_, bodies, bind_eq_ok.mpr ⟨_, suffixes, rfl⟩⟩

end Template

end Schemata
