/-
**What the compiler makes of a forest elsewhere.**

A forest may stand at another place of a text, with other schemas defined around it and more
objects.

* `Param.compileChain_relocate`: a chain compiles alike whatever the offsets of its lexemes are, and
  fails alike;
* `Scope.resolve_append`: what may be read somewhere may be read there with more objects around;
* `Param.compileChain_within`: a chain with more objects and more schemas around becomes the same
  chain with the handles that its names have there.
-/

import Schemata.Proofs.Compilation.Form
import Schemata.Proofs.Language.Relocation
import Schemata.Proofs.Template.Renumbering

namespace Schemata

/-! ### Other offsets -/

namespace Param

variable (move : Nat → Nat)

theorem fieldName?_relocate (param : Param) :
    (param.relocate move).fieldName? = param.fieldName? := by
  cases param <;> rfl

theorem isNone_comma_relocate (param : Param) :
    ((param.relocate move).token? .comma).isNone = (param.token? .comma).isNone := by
  rw [Grammar.token?_relocate, Option.isNone_map]

theorem areInvocations_relocateAll (params : List Param) :
    areInvocations (relocateAll move params) = areInvocations params := by
  rw [relocateAll_eq_map, areInvocations, areInvocations, List.all_map]
  congr 1
  funext param
  cases param <;> rfl

theorem schemaName_relocateAll (validator : String) (params : List Param) :
    schemaName validator (relocateAll move params) = schemaName validator params := by
  cases params with
  | nil => rfl
  | cons param rest =>
      rw [relocateAll, schemaName, schemaName, Grammar.token?_relocate]
      cases param.token? .identifier <;> rfl

theorem countFields_relocateAll (params : List Param) : ∀ found,
    countFields found (relocateAll move params) = countFields found params := by
  induction params with
  | nil => exact fun _ => rfl
  | cons param rest ih =>
      intro found
      cases param with
      | validator invocation =>
          cases found with
          | nil => rfl
          | cons field others => exact ih _
      | injection _ | comparison _ => rfl
      | text content => exact ih _
      | token lexeme =>
          simp only [relocateAll, relocate, countFields, fieldName?, Lexeme.relocate]
          split <;> exact ih _

theorem declaredFields_relocateAll (params : List Param) :
    declaredFields (relocateAll move params) = declaredFields params := by
  rw [declaredFields, declaredFields, countFields_relocateAll]

theorem isSuffix_relocate (param : Param) : (param.relocate move).isSuffix = param.isSuffix := by
  obtain ⟨_, _, _⟩ | _ | _ | _ | _ := param <;> rfl

theorem compileSuffix_relocate (param : Param) :
    (param.relocate move).compileSuffix = param.compileSuffix := by
  obtain ⟨_, params, _⟩ | _ | _ | _ | _ := param
  · match params with
    | [] => rfl
    | first :: [] | first :: _ :: _ => cases first <;> rfl
  all_goals rfl

theorem checkSuffixes_relocateAll (params : List Param) :
    checkSuffixes (relocateAll move params) = checkSuffixes params := by
  obtain _ | ⟨⟨_, _, _⟩ | _ | _ | _ | _, rest⟩ := params
  all_goals simp [checkSuffixes, relocateAll, relocate, Invocation.relocate, Invocation.name,
    relocateAll_eq_map, Function.comp_def, isSuffix_relocate]

theorem takeWhile_relocateAll (params : List Param) :
    (relocateAll move params).takeWhile (fun param => !param.isSuffix) =
      relocateAll move (params.takeWhile fun param => !param.isSuffix) := by
  simp only [relocateAll_eq_map, List.takeWhile_map, Function.comp_def, isSuffix_relocate]

theorem dropWhile_relocateAll (params : List Param) :
    (relocateAll move params).dropWhile (fun param => !param.isSuffix) =
      relocateAll move (params.dropWhile fun param => !param.isSuffix) := by
  simp only [relocateAll_eq_map, List.dropWhile_map, Function.comp_def, isSuffix_relocate]

end Param

section Checks

variable (move : Nat → Nat)

theorem Primitive.compile_relocateAll (primitive : Primitive) (params : List Param)
    (tag : Option ErrorTag) :
    primitive.compile (Param.relocateAll move params) tag = primitive.compile params tag := by
  cases params <;> rfl

theorem Bound.ofParam_relocate (validator : String) (param : Param) :
    ofParam validator (param.relocate move) = ofParam validator param := by
  cases param <;> rfl

theorem Step.ofEquality_relocateAll (validator : String) (expected : Bool) (params : List Param)
    (tag : Option ErrorTag) :
    ofEquality validator expected (Param.relocateAll move params) tag =
      ofEquality validator expected params tag := by
  match params with
  | [param] =>
      show (Bound.ofParam validator (param.relocate move) >>= _) = _
      rw [Bound.ofParam_relocate]
      rfl
  | [] | _ :: _ :: _ => rfl

theorem Step.ofMembership_relocateAll (params : List Param) (tag : Option ErrorTag) :
    ofMembership (Param.relocateAll move params) tag = ofMembership params tag := by
  rw [ofMembership, ofMembership, Param.relocateAll_eq_map, List.filter_map, List.mapM_map]
  simp only [Function.comp_def, Param.isNone_comma_relocate, Bound.ofParam_relocate]

theorem Step.ofMatching_relocateAll (params : List Param) (tag : Option ErrorTag) :
    ofMatching (Param.relocateAll move params) tag = ofMatching params tag := by
  match params with
  | [] => rfl
  | first :: [] | first :: _ :: _ => cases first <;> rfl

theorem Step.ofComparison_relocateAll (scopes : List Scope) (validator : String) (ofLength : Bool)
    (params : List Param) (tag : Option ErrorTag) :
    ofComparison scopes validator ofLength (Param.relocateAll move params) tag =
      ofComparison scopes validator ofLength params tag := by
  match params with
  | [] => rfl
  | first :: [] | first :: _ :: _ => cases first <;> rfl

end Checks

mutual

theorem Invocation.referencedFields_relocate (move : Nat → Nat) : (invocation : Invocation) →
    (invocation.relocate move).referencedFields = invocation.referencedFields
  | .mk _ params _ => Param.referencedFields_relocateAll move params

theorem Param.referencedFields_relocateAll (move : Nat → Nat) : (params : List Param) →
    Param.referencedFields (Param.relocateAll move params) = Param.referencedFields params
  | [] => rfl
  | param :: rest => by
      rw [Param.relocateAll, Param.referencedFields, Param.referencedFields,
        Param.referencedIn_relocate move param, Param.referencedFields_relocateAll move rest]

theorem Param.referencedIn_relocate (move : Nat → Nat) : (param : Param) →
    (param.relocate move).referencedIn = param.referencedIn
  | .validator invocation => Invocation.referencedFields_relocate move invocation
  | .token _ | .text _ | .injection _ | .comparison _ => rfl

end

mutual

theorem Invocation.schemaNames_relocate (move : Nat → Nat) : (invocation : Invocation) →
    (invocation.relocate move).schemaNames = invocation.schemaNames
  | .mk validator params _ => by
      have named :
          Param.schemaName? (Param.relocateAll move params) = Param.schemaName? params := by
        cases params with
        | nil => rfl
        | cons param rest =>
            show ((param.relocate move).token? .identifier).map Lexeme.value = _
            rw [Grammar.token?_relocate, Option.map_map]
            rfl
      rw [Invocation.relocate, Invocation.schemaNames, Invocation.schemaNames, named,
        Param.schemaNames_relocateAll move params]

theorem Param.schemaNames_relocateAll (move : Nat → Nat) : (params : List Param) →
    Param.schemaNames (Param.relocateAll move params) = Param.schemaNames params
  | [] => rfl
  | param :: rest => by
      rw [Param.relocateAll, Param.schemaNames, Param.schemaNames,
        Param.schemaNamesOf_relocate move param, Param.schemaNames_relocateAll move rest]

theorem Param.schemaNamesOf_relocate (move : Nat → Nat) : (param : Param) →
    (param.relocate move).schemaNamesOf = param.schemaNamesOf
  | .validator invocation => Invocation.schemaNames_relocate move invocation
  | .token _ | .text _ | .injection _ | .comparison _ => rfl

end

section Offsets

variable (move : Nat → Nat)

mutual

theorem Invocation.declare_relocate : (invocation : Invocation) → ∀ names,
    (invocation.relocate move).declare names = invocation.declare names
  | .mk validator params _ => by
      intro names
      simp only [Invocation.relocate, Invocation.declare, Param.schemaName_relocateAll,
        Param.declareAll_relocateAll params]

theorem Param.declareAll_relocateAll : (params : List Param) → ∀ names,
    Param.declareAll names (Param.relocateAll move params) = Param.declareAll names params
  | [] => fun _ => rfl
  | param :: rest => by
      intro names
      simp only [Param.relocateAll, Param.declareAll, Param.declare_relocate param,
        Param.declareAll_relocateAll rest]

theorem Param.declare_relocate : (param : Param) → ∀ names,
    Param.declare names (param.relocate move) = Param.declare names param
  | .validator invocation => Invocation.declare_relocate invocation
  | .token _ | .text _ | .injection _ | .comparison _ => fun _ => rfl

end

variable (names : List String)

mutual

/-- **An invocation compiles alike wherever its lexemes stand**, and fails alike. -/
theorem Invocation.compile_relocate : (invocation : Invocation) → ∀ scopes,
    (invocation.relocate move).compile names scopes = invocation.compile names scopes
  | .mk validator params tag => by
      intro scopes
      rw [Invocation.relocate, Invocation.compile, Invocation.compile]
      cases Primitive.ofName? validator with
      | some primitive => exact primitive.compile_relocateAll move params tag
      | none =>
          simp only [Step.ofEquality_relocateAll, Step.ofMembership_relocateAll,
            Step.ofMatching_relocateAll, Step.ofComparison_relocateAll,
            Param.declaredFields_relocateAll, Param.referencedFields_relocateAll,
            Param.areInvocations_relocateAll, Param.schemaName_relocateAll,
            Param.compileFields_relocate params, Param.compileChain_relocate params,
            Param.compileDefinition_relocate params]
          rfl

theorem Param.compileDefinition_relocate : (params : List Param) → ∀ scopes,
    Param.compileDefinition names scopes (Param.relocateAll move params) =
      Param.compileDefinition names scopes params
  | [] => fun _ => rfl
  | param :: rest => by
      intro scopes
      have named := Param.schemaName_relocateAll move "define" [param]
      have empty : (Param.relocateAll move rest).isEmpty = rest.isEmpty := by
        cases rest <;> rfl
      simp only [Param.relocateAll] at named
      simp only [Param.relocateAll, Param.compileDefinition, named, empty,
        Param.areInvocations_relocateAll, Param.compileChain_relocate rest]

/-- **A chain compiles alike wherever its lexemes stand**, and fails alike. -/
theorem Param.compileChain_relocate : (params : List Param) → ∀ scopes,
    Param.compileChain names scopes (Param.relocateAll move params) =
      Param.compileChain names scopes params
  | [] => fun _ => rfl
  | param :: rest => by
      intro scopes
      simp only [Param.relocateAll, Param.compileChain, Param.compileOne_relocate param,
        Param.compileChain_relocate rest]

theorem Param.compileOne_relocate : (param : Param) → ∀ scopes,
    Param.compileOne names scopes (param.relocate move) = Param.compileOne names scopes param
  | .validator invocation => by
      intro scopes
      simp only [Param.relocate, Param.compileOne, Invocation.compile_relocate invocation]
  | .token _ | .text _ | .injection _ | .comparison _ => fun _ => rfl

theorem Param.compileFields_relocate : (params : List Param) → ∀ scopes declared referenced started,
    Param.compileFields names scopes declared referenced started (Param.relocateAll move params) =
      Param.compileFields names scopes declared referenced started params
  | [] => fun _ _ _ _ => rfl
  | param :: rest => by
      intro scopes declared referenced started
      simp only [Param.relocateAll, Param.compileFields, Param.fieldName?_relocate,
        Param.compileOne_relocate param, Param.compileFields_relocate rest]

end

end Offsets

/-! ### More objects and more schemas -/

/-- **What may be read may be read with more objects around.** -/
theorem Scope.resolve_append {name : String} {scopes : List Scope} (outer : List Scope)
    (resolves : resolve name scopes = .ok ()) : resolve name (scopes ++ outer) = .ok () := by
  induction scopes with
  | nil => cases resolves
  | cons scope rest ih =>
      rw [List.cons_append]
      unfold resolve at resolves ⊢
      cases found : scope.fields.findIdx? (· = name) with
      | some position =>
          rw [found] at resolves
          exact resolves
      | none =>
          rw [found] at resolves
          exact ih resolves

theorem Step.ofComparison_append {scopes : List Scope} (outer : List Scope) {validator : String}
    {ofLength : Bool} {params : List Param} {tag : Option ErrorTag} {step : Step}
    (compiles : ofComparison scopes validator ofLength params tag = .ok step) :
    ofComparison (scopes ++ outer) validator ofLength params tag = .ok step := by
  unfold ofComparison at compiles ⊢
  split at compiles
  · obtain ⟨bound, bounds, same⟩ := bind_eq_ok.mp compiles
    refine bind_eq_ok.mpr ⟨bound, ?_, same⟩
    unfold Bound.ofOperand at bounds ⊢
    split at bounds
    · exact bounds
    · exact bounds
    · exact bounds
    · obtain ⟨_, resolves, same⟩ := bind_eq_ok.mp bounds
      exact bind_eq_ok.mpr ⟨_, Scope.resolve_append outer resolves, same⟩
  · cases compiles

/-- A check may stand in more objects. -/
theorem Invocation.Checks.append {scopes : List Scope} {invocation : Invocation} {step : Step}
    (checks : invocation.Checks scopes step) (outer : List Scope) :
    invocation.Checks (scopes ++ outer) step := by
  cases checks with
  | primitive named compiles => exact .primitive named compiles
  | equality equates compiles => exact .equality equates compiles
  | membership compiles => exact .membership compiles
  | matching compiles => exact .matching compiles
  | comparison compares compiles =>
      exact .comparison compares (Step.ofComparison_append outer compiles)

section Within

variable {names others : List String} {further : Nat}

mutual

/-- **An invocation with more around it becomes the same step**, with the handles that its names
have there. -/
theorem Invocation.compile_within (outer : List Scope)
    (handles : ∀ name handle, Param.handle names name = .ok handle →
      Param.handle others name = .ok (further + handle)) :
    (invocation : Invocation) → ∀ scopes step, invocation.compile names scopes = .ok step →
      invocation.compile others (scopes ++ outer) = .ok (step.renumber further)
  | .mk validator params tag => by
      have chainWithin := Param.compileChain_within outer handles params
      have fieldsWithin := Param.compileFields_within outer handles params
      intro scopes step compiles
      refine Invocation.Compiles.compile ?_
      cases Invocation.compiles_of_ok compiles with
      | check checks =>
          rw [Step.renumber_of_isCheck further checks.spec.1]
          exact .check (checks.append outer)
      | object declares steps =>
          exact .object declares (fieldsWithin _ _ _ _ _ _ steps)
      | array invocations steps =>
          exact .array invocations (chainWithin _ _ steps)
      | @definition param rest name handle chain named handled nonempty invocations steps =>
          have inside := chainWithin _ _ ((Param.compileChain_of_named named).trans steps)
          exact .definition named (handles name handle handled) nonempty invocations
            ((Param.compileChain_of_named named).symm.trans inside)
      | reference named handled => exact .reference named (handles _ _ handled)

/-- **A chain with more around it becomes the same chain**, with the handles that its names have
there. -/
theorem Param.compileChain_within (outer : List Scope)
    (handles : ∀ name handle, Param.handle names name = .ok handle →
      Param.handle others name = .ok (further + handle)) :
    (params : List Param) → ∀ scopes chain, Param.compileChain names scopes params = .ok chain →
      Param.compileChain others (scopes ++ outer) params = .ok (Step.renumberAll further chain)
  | [] => by
      intro scopes chain compiles
      cases compiles
      rfl
  | param :: rest => by
      intro scopes chain compiles
      rw [Param.compileChain] at compiles
      obtain ⟨steps, first, inner⟩ := bind_eq_ok.mp compiles
      obtain ⟨later, second, same⟩ := bind_eq_ok.mp inner
      cases same
      rw [Param.compileChain, Step.renumberAll_append]
      exact bind_eq_ok.mpr ⟨_, Param.compileOne_within outer handles param _ _ first,
        bind_eq_ok.mpr ⟨_, Param.compileChain_within outer handles rest _ _ second, rfl⟩⟩

theorem Param.compileOne_within (outer : List Scope)
    (handles : ∀ name handle, Param.handle names name = .ok handle →
      Param.handle others name = .ok (further + handle)) :
    (param : Param) → ∀ scopes steps, Param.compileOne names scopes param = .ok steps →
      Param.compileOne others (scopes ++ outer) param = .ok (Step.renumberAll further steps)
  | .validator invocation => by
      intro scopes steps compiles
      rw [Param.compileOne] at compiles
      obtain ⟨step, inner, same⟩ := bind_eq_ok.mp compiles
      cases same
      rw [Param.compileOne]
      exact bind_eq_ok.mpr ⟨_, Invocation.compile_within outer handles invocation _ _ inner, rfl⟩
  | .token _ | .text _ | .injection _ | .comparison _ => by
      intro scopes steps compiles
      cases compiles
      rfl

theorem Param.compileFields_within (outer : List Scope)
    (handles : ∀ name handle, Param.handle names name = .ok handle →
      Param.handle others name = .ok (further + handle)) :
    (params : List Param) → ∀ scopes declared referenced started first fields,
      Param.compileFields names scopes declared referenced started params = .ok (first, fields) →
      Param.compileFields others (scopes ++ outer) declared referenced started params =
        .ok (Step.renumberAll further first, Field.renumberAll further fields)
  | [] => by
      intro scopes declared referenced started first fields compiles
      cases compiles
      rfl
  | param :: rest => by
      intro scopes declared referenced started first fields compiles
      rw [Param.compileFields] at compiles ⊢
      split at compiles
      · obtain ⟨⟨steps, later⟩, inner, same⟩ := bind_eq_ok.mp compiles
        cases same
        exact bind_eq_ok.mpr
          ⟨_, Param.compileFields_within outer handles rest _ _ _ _ _ _ inner, rfl⟩
      · obtain ⟨one, first, inner⟩ := bind_eq_ok.mp compiles
        obtain ⟨⟨steps, later⟩, second, same⟩ := bind_eq_ok.mp inner
        cases same
        rw [Step.renumberAll_append]
        exact bind_eq_ok.mpr ⟨_, Param.compileOne_within outer handles param _ _ first,
          bind_eq_ok.mpr
            ⟨_, Param.compileFields_within outer handles rest _ _ _ _ _ _ second, rfl⟩⟩

end

end Within

end Schemata
