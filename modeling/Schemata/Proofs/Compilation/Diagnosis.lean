/-
**The compiler accepts what satisfies the requirements, and tells of a violation otherwise.**

* `Invocation.violates_of_compile`: an error inside a well-formed chain tells of a violation, as
  does an error on the way to the template (`Param.Formed.violates`);
* `Param.Occurs.compiles`: what occurs in a chain that compiles is compiled with the scopes that it
  occurs in;
* `Param.Formed.not_violates`: so nothing in it violates the requirements;
* `Param.Formed.isOk_iff`: a chain with suffixes behind it compiles if and only if it is admissible.
-/

import Schemata.Proofs.Compilation.Names
import Schemata.Proofs.Template.Coherence

namespace Schemata

/-! ### Handles -/

theorem Param.handle_eq_error {names : List String} {name : String} {error : CompileError}
    (fails : handle names name = .error error) : error = .undefinedSchema name ∧ name ∉ names := by
  unfold handle at fails
  split at fails
  · cases fails
  · rename_i missing
    cases fails
    refine ⟨rfl, fun member => ?_⟩
    have other := List.findIdx?_eq_none_iff.mp missing name member
    exact of_decide_eq_false other rfl

theorem Param.getElem?_of_handle {names : List String} {name : String} {place : Nat}
    (handled : handle names name = .ok place) : names[place]? = some name := by
  unfold handle at handled
  split at handled
  · rename_i found
    cases handled
    obtain ⟨valid, same, -⟩ := List.findIdx?_eq_some_iff_getElem.mp found
    exact List.getElem?_eq_some_iff.mpr ⟨valid, of_decide_eq_true same⟩
  · cases handled

/-! ### Errors -/

section Errors

variable {chain : List Param} {scopes : List Scope} {error : CompileError}

/-- An error of a comparison tells of a violation. -/
theorem Param.violates_of_comparison {validator : String} {comparison : Comparison}
    {tag : Option ErrorTag}
    (occurs : Occurs chain scopes (.mk validator [.comparison comparison] tag))
    (compares : validator ∈ comparators)
    (fails : Step.ofComparison scopes validator (validator = "length")
      [.comparison comparison] tag = .error error) : Violates chain error := by
  obtain ⟨relation, operand⟩ := comparison
  rcases bind_eq_error.mp fails with refused | ⟨_, -, ⟨⟩⟩
  rcases Bound.ofOperand_eq_error refused with ⟨length, ⟨text, rfl⟩, rfl⟩ | ⟨name, rfl, unresolved⟩
  · cases of_decide_eq_true length
    exact .textBound occurs
  · rcases Scope.resolve_eq name scopes with ⟨resolves, undeclared⟩ | ⟨scope, declared, either⟩
    · cases resolves.symm.trans unresolved
      exact .unknownDependency occurs compares undeclared
    · rcases either with ⟨resolves, -⟩ | ⟨resolves, late⟩
      · cases resolves.symm.trans unresolved
      · cases resolves.symm.trans unresolved
        exact .forwardDependency occurs compares declared late

mutual

/-- **An error inside a well-formed chain tells of a violation.** -/
theorem Invocation.violates_of_compile (formed : Param.Formed chain) : (invocation : Invocation) →
    ∀ (scopes : List Scope) (error : CompileError), Param.Occurs chain scopes invocation →
      invocation.compile (Param.schemaNames chain) scopes = .error error →
      Param.Violates chain error
  | .mk validator params tag => by
      have chainViolates := Param.violates_of_compileChain formed params
      have fieldsViolate := Param.violates_of_compileFields formed params
      intro scopes error occurs fails
      cases formed.occurring occurs with
      | primitive named =>
          rw [Invocation.compile_primitive named] at fails
          cases fails
      | equality equates value =>
          obtain ⟨step, compiles⟩ :=
            Step.exists_ofEquality value validator (validator = "equal") tag
          rw [Invocation.compile_equality equates] at fails
          cases compiles.symm.trans fails
      | oneOf values some =>
          obtain ⟨step, compiles⟩ := Step.exists_ofMembership tag values some
          rw [Invocation.compile_oneOf] at fails
          cases compiles.symm.trans fails
      | @regex text =>
          rw [Invocation.compile_regex] at fails
          unfold Step.ofMatching at fails
          dsimp only at fails
          split at fails
          · cases fails
          · rename_i unreadable
            cases fails
            exact .invalidPattern occurs unreadable
      | comparison compares =>
          rw [Invocation.compile_comparison compares] at fails
          exact Param.violates_of_comparison occurs compares fails
      | object fields =>
          rw [Invocation.compile_object] at fails
          rcases bind_eq_error.mp fails with fails | ⟨declared, declares, fails⟩
          · obtain ⟨name, rfl, twice⟩ := fields.declaredFields_error fails
            exact .repeatedField occurs twice
          · rcases bind_eq_error.mp fails with fails | ⟨_, -, ⟨⟩⟩
            refine fieldsViolate _ _ _ _ _ ?_ fails
            rintro before invocation after rfl
            rw [Param.declaredFields_eq declares, Nat.zero_add]
            exact .field occurs
      | array invocations =>
          rw [Invocation.compile_array invocations] at fails
          rcases bind_eq_error.mp fails with fails | ⟨_, -, ⟨⟩⟩
          exact chainViolates _ _ (fun _ member => .inside occurs (by decide) member) fails
      | @define lexeme body _ identifier chain =>
          cases tag with
          | some tag =>
              rw [Invocation.compile_tagged (by decide)] at fails
              cases fails
              exact .taggedSchema occurs (by decide)
          | none =>
              rw [Invocation.compile_define identifier chain] at fails
              rcases bind_eq_error.mp fails with fails | ⟨handle, -, fails⟩
              · have listed := occurs.mem_schemaNames (Param.schemaName?_token identifier)
                exact absurd listed (Param.handle_eq_error fails).2
              · rcases bind_eq_error.mp fails with fails | ⟨_, -, ⟨⟩⟩
                have named : Param.schemaName "define" [.token lexeme] = .ok lexeme.value := by
                  simp [Param.schemaName, Param.token?, identifier]
                exact chainViolates _ _ (fun _ member => .inside occurs (by decide) member)
                  ((Param.compileChain_of_named named).trans fails)
      | reference identifier =>
          cases tag with
          | some tag =>
              rw [Invocation.compile_tagged (by decide)] at fails
              cases fails
              exact .taggedSchema occurs (by decide)
          | none =>
              rw [Invocation.compile_reference identifier] at fails
              rcases bind_eq_error.mp fails with fails | ⟨_, -, ⟨⟩⟩
              obtain ⟨rfl, undefined⟩ := Param.handle_eq_error fails
              exact .undefinedSchema occurs (Param.schemaName?_token identifier) undefined

theorem Param.violates_of_compileChain (formed : Param.Formed chain) : (params : List Param) →
    ∀ (scopes : List Scope) (error : CompileError),
      (∀ invocation, .validator invocation ∈ params → Param.Occurs chain scopes invocation) →
      Param.compileChain (Param.schemaNames chain) scopes params = .error error →
      Param.Violates chain error
  | [] => by
      intro scopes error _ fails
      cases fails
  | param :: rest => by
      intro scopes error occurs fails
      rw [Param.compileChain] at fails
      rcases bind_eq_error.mp fails with fails | ⟨_, -, fails⟩
      · exact Param.violates_of_compileOne formed param _ _
          (fun invocation same => occurs invocation (same ▸ List.mem_cons_self)) fails
      · rcases bind_eq_error.mp fails with fails | ⟨_, -, ⟨⟩⟩
        exact Param.violates_of_compileChain formed rest _ _
          (fun invocation member => occurs invocation (List.mem_cons_of_mem _ member)) fails

theorem Param.violates_of_compileOne (formed : Param.Formed chain) : (param : Param) →
    ∀ (scopes : List Scope) (error : CompileError),
      (∀ invocation, param = .validator invocation → Param.Occurs chain scopes invocation) →
      Param.compileOne (Param.schemaNames chain) scopes param = .error error →
      Param.Violates chain error
  | .validator invocation => by
      intro scopes error occurs fails
      rw [Param.compileOne] at fails
      rcases bind_eq_error.mp fails with fails | ⟨_, -, ⟨⟩⟩
      exact Invocation.violates_of_compile formed invocation _ _ (occurs invocation rfl) fails
  | .token _ | .text _ | .injection _ | .comparison _ => by
      intro scopes error _ fails
      cases fails

theorem Param.violates_of_compileFields (formed : Param.Formed chain) : (params : List Param) →
    ∀ (scopes : List Scope) (declared referenced : List String) (started : Nat)
      (error : CompileError),
      (∀ before invocation after, params = before ++ Param.validator invocation :: after →
        Param.Occurs chain (⟨declared, started + (Param.fieldNames before).length - 1⟩ :: scopes)
          invocation) →
      Param.compileFields (Param.schemaNames chain) scopes declared referenced started params =
        .error error → Param.Violates chain error
  | [] => by
      intro scopes declared referenced started error _ fails
      cases fails
  | param :: rest => by
      intro scopes declared referenced started error occurs fails
      rw [Param.compileFields] at fails
      split at fails
      · rename_i name named
        rcases bind_eq_error.mp fails with fails | ⟨_, -, ⟨⟩⟩
        refine Param.violates_of_compileFields formed rest _ _ _ _ _ ?_ fails
        rintro before invocation after rfl
        have inside := occurs (param :: before) invocation after rfl
        have longer : (Param.fieldNames (param :: before)).length =
            (Param.fieldNames before).length + 1 := by
          simp [Param.fieldNames, named]
        rwa [longer, Nat.add_comm _ 1, ← Nat.add_assoc] at inside
      · rename_i unnamed
        rcases bind_eq_error.mp fails with fails | ⟨_, -, fails⟩
        · refine Param.violates_of_compileOne formed param _ _ ?_ fails
          rintro invocation rfl
          exact occurs [] invocation rest rfl
        · rcases bind_eq_error.mp fails with fails | ⟨_, -, ⟨⟩⟩
          refine Param.violates_of_compileFields formed rest _ _ _ _ _ ?_ fails
          rintro before invocation after rfl
          have inside := occurs (param :: before) invocation after rfl
          have same : Param.fieldNames (param :: before) = Param.fieldNames before := by
            simp [Param.fieldNames, unnamed]
          rwa [same] at inside

end

end Errors

/-! ### Chains that compile -/

section Compiled

variable {names : List String} {scopes : List Scope} {params : List Param} {invocation : Invocation}

/-- Every invocation of a chain is compiled to one of its steps. -/
theorem Param.compiles_of_mem {steps : List Step}
    (compiles : compileChain names scopes params = .ok steps)
    (member : .validator invocation ∈ params) :
    ∃ step ∈ steps, invocation.compile names scopes = .ok step := by
  induction params generalizing steps with
  | nil => cases member
  | cons param rest ih =>
      rw [compileChain] at compiles
      obtain ⟨one, first, others⟩ := bind_eq_ok.mp compiles
      obtain ⟨later, second, same⟩ := bind_eq_ok.mp others
      cases same
      rcases List.mem_cons.mp member with rfl | member
      · rw [compileOne] at first
        obtain ⟨step, inner, same⟩ := bind_eq_ok.mp first
        cases same
        exact ⟨step, List.mem_append_left _ List.mem_cons_self, inner⟩
      · obtain ⟨step, here, inner⟩ := ih second member
        exact ⟨step, List.mem_append_right _ here, inner⟩

/-- Every invocation among some fields is compiled to a step of its field. -/
theorem Param.compiles_of_split {declared referenced : List String} {after : List Param}
    (before : List Param) : ∀ {started current : Nat} {first : List Step} {fields : List Field},
    current = started + (fieldNames before).length - 1 →
    compileFields names scopes declared referenced started
      (before ++ .validator invocation :: after) = .ok (first, fields) →
    ∃ step, invocation.compile names (⟨declared, current⟩ :: scopes) = .ok step ∧
      (step ∈ first ∨ ∃ field ∈ fields, step ∈ field.chain) := by
  induction before with
  | nil =>
      intro started current first fields place compiles
      subst place
      rw [List.nil_append, compileFields] at compiles
      obtain ⟨one, here, others⟩ := bind_eq_ok.mp compiles
      obtain ⟨⟨steps, later⟩, -, same⟩ := bind_eq_ok.mp others
      cases same
      rw [compileOne] at here
      obtain ⟨step, inner, same⟩ := bind_eq_ok.mp here
      cases same
      exact ⟨step, inner, .inl (List.mem_append_left _ List.mem_cons_self)⟩
  | cons param before ih =>
      intro started current first fields place compiles
      rw [List.cons_append, compileFields] at compiles
      split at compiles
      · rename_i name named
        obtain ⟨⟨steps, others⟩, later, same⟩ := bind_eq_ok.mp compiles
        cases same
        have counted : current = started + 1 + (fieldNames before).length - 1 := by
          rw [place]
          simp only [fieldNames, List.filterMap_cons, named, List.length_cons]
          omega
        obtain ⟨step, inner, here | ⟨field, member, here⟩⟩ := ih counted later
        · exact ⟨step, inner, .inr ⟨_, List.mem_cons_self, here⟩⟩
        · exact ⟨step, inner, .inr ⟨field, List.mem_cons_of_mem _ member, here⟩⟩
      · rename_i unnamed
        obtain ⟨one, -, behind⟩ := bind_eq_ok.mp compiles
        obtain ⟨⟨steps, others⟩, later, same⟩ := bind_eq_ok.mp behind
        cases same
        have counted : current = started + (fieldNames before).length - 1 := by
          rw [place]
          simp only [fieldNames, List.filterMap_cons, unnamed]
        obtain ⟨step, inner, here | inside⟩ := ih counted later
        · exact ⟨step, inner, .inl (List.mem_append_right _ here)⟩
        · exact ⟨step, inner, .inr inside⟩

end Compiled

namespace Param

variable {chain : List Param} {names : List String} {root : List Step}

/-- **What occurs in a chain that compiles is compiled**, with the scopes that it occurs in, and the
schemas that it defines are defined in the whole. -/
theorem Occurs.compiles (formed : Formed chain) (compiled : compileChain names [] chain = .ok root)
    {scopes : List Scope} {invocation : Invocation} (occurs : Occurs chain scopes invocation) :
    ∃ step, invocation.compile names scopes = .ok step ∧
      step.definitions ⊆ Step.definitionsOfAll root := by
  induction occurs with
  | root member =>
      obtain ⟨step, here, compiles⟩ := compiles_of_mem compiled member
      exact ⟨step, compiles, Step.definitions_subset_of_mem here⟩
  | @field scopes tag before after invocation outer ih =>
      obtain ⟨object, compiles, within⟩ := ih
      rw [Invocation.compile_object] at compiles
      obtain ⟨declared, declares, others⟩ := bind_eq_ok.mp compiles
      obtain ⟨⟨first, fields⟩, compiles', same⟩ := bind_eq_ok.mp others
      cases same
      cases declaredFields_eq declares
      have place : (fieldNames before).length - 1 = 0 + (fieldNames before).length - 1 := by
        rw [Nat.zero_add]
      obtain ⟨step, inner, member | ⟨field, listed, here⟩⟩ :=
        compiles_of_split before place compiles'
      · -- Fields start with a name, so no step stands before them.
        have empty : first = [] := ((formed.occurring outer).shapes.1 rfl).no_steps compiles'
        rw [empty] at member
        cases member
      · refine ⟨step, inner, List.Subset.trans ?_ within⟩
        exact List.Subset.trans (Step.definitions_subset_of_mem here)
          (Step.definitions_subset_of_field listed)
  | @inside scopes validator params tag invocation outer other member ih =>
      obtain ⟨around, compiles, within⟩ := ih
      have form := formed.occurring outer
      rcases form.inside member other with ⟨rfl, invocations⟩ | rfl
      · rw [Invocation.compile_array invocations] at compiles
        obtain ⟨steps, inside, same⟩ := bind_eq_ok.mp compiles
        cases same
        obtain ⟨step, here, inner⟩ := compiles_of_mem inside member
        exact ⟨step, inner, List.Subset.trans (Step.definitions_subset_of_mem here) within⟩
      · obtain ⟨lexeme, body, rfl, identifier, isChain⟩ := form.shapes.2.1 rfl
        cases Invocation.tag_eq_none_of_compile (by decide) compiles
        rw [Invocation.compile_define identifier isChain] at compiles
        obtain ⟨handle, -, others⟩ := bind_eq_ok.mp compiles
        obtain ⟨steps, inside, same⟩ := bind_eq_ok.mp others
        cases same
        rcases List.mem_cons.mp member with ⟨⟨⟩⟩ | member
        obtain ⟨step, here, inner⟩ := compiles_of_mem inside member
        refine ⟨step, inner, List.Subset.trans (Step.definitions_subset_of_mem here) ?_⟩
        exact List.Subset.trans (List.subset_cons_self _ _) within

/-- A dependency that compiles is declared in time. -/
theorem Occurs.offers (formed : Formed chain) (compiled : compileChain names [] chain = .ok root)
    {scopes : List Scope} {validator name : String} {relation : Relation} {tag : Option ErrorTag}
    (occurs : Occurs chain scopes (.mk validator [.comparison ⟨relation, .field name⟩] tag))
    (compares : validator ∈ comparators) :
    ∃ scope, Scope.declaring? name scopes = some scope ∧ scope.Offers name := by
  obtain ⟨step, compiles, -⟩ := occurs.compiles formed compiled
  rw [Invocation.compile_comparison compares] at compiles
  obtain ⟨bound, bounds, -⟩ := bind_eq_ok.mp compiles
  obtain ⟨_, resolves, -⟩ := bind_eq_ok.mp bounds
  exact Scope.offers_of_resolve resolves

/-- **Nothing that occurs in a chain that compiles violates the requirements.** -/
theorem Formed.not_violates (formed : Formed chain) (distinct : (schemaNames chain).Nodup)
    (compiled : compileChain (schemaNames chain) [] chain = .ok root) (error : CompileError) :
    ¬Violates chain error := by
  intro violates
  cases violates with
  | duplicateSchema twice => exact List.nodup_iff_forall_not_duplicate.mp distinct _ twice
  | undefinedSchema occurs refers undefined =>
      obtain ⟨lexeme, rfl, identifier⟩ := (formed.occurring occurs).shapes.2.2 rfl
      obtain ⟨step, compiles, -⟩ := occurs.compiles formed compiled
      cases Invocation.tag_eq_none_of_compile (by decide) compiles
      rw [Invocation.compile_reference identifier] at compiles
      obtain ⟨place, handled, -⟩ := bind_eq_ok.mp compiles
      cases (schemaName?_token identifier).symm.trans refers
      exact undefined (List.mem_of_getElem? (getElem?_of_handle handled))
  | taggedSchema occurs schema =>
      obtain ⟨step, compiles, -⟩ := occurs.compiles formed compiled
      cases Invocation.tag_eq_none_of_compile schema compiles
  | repeatedField occurs twice =>
      obtain ⟨step, compiles, -⟩ := occurs.compiles formed compiled
      rw [Invocation.compile_object] at compiles
      obtain ⟨declared, declares, -⟩ := bind_eq_ok.mp compiles
      exact List.nodup_iff_forall_not_duplicate.mp (nodup_of_declaredFields declares) _ twice
  | textBound occurs =>
      obtain ⟨step, compiles, -⟩ := occurs.compiles formed compiled
      rw [Invocation.compile_comparison (by decide)] at compiles
      cases compiles
  | invalidPattern occurs unreadable =>
      obtain ⟨step, compiles, -⟩ := occurs.compiles formed compiled
      rw [Invocation.compile_regex, Step.ofMatching, unreadable] at compiles
      cases compiles
  | unknownDependency occurs compares undeclared =>
      obtain ⟨_, declared, -⟩ := occurs.offers formed compiled compares
      cases undeclared.symm.trans declared
  | forwardDependency occurs compares declared late =>
      obtain ⟨_, found, offers⟩ := occurs.offers formed compiled compares
      cases declared.symm.trans found
      exact late offers

/-! ### Bodies -/

/-- **Every name of a chain that compiles has a body.** -/
theorem Formed.exists_bodies (formed : Formed chain) (distinct : (schemaNames chain).Nodup)
    (compiled : compileChain (schemaNames chain) [] chain = .ok root) :
    ∃ bodies, (schemaNames chain).zipIdx.mapM (fun (name, handle) =>
      Template.bodyOf (Step.definitionsOfAll root) handle name) = .ok bodies := by
  refine exists_mapM_eq_ok ?_
  rintro ⟨name, handle⟩ member
  have here : (schemaNames chain)[handle]? = some name := List.mem_zipIdx_iff_getElem?.mp member
  obtain ⟨scopes, params, tag, occurs, named⟩ := defines_of_mem (List.mem_of_getElem? here)
  obtain ⟨lexeme, body, rfl, identifier, isChain⟩ :=
    (formed.occurring occurs).shapes.2.1 rfl
  obtain ⟨step, compiles, within⟩ := occurs.compiles formed compiled
  cases Invocation.tag_eq_none_of_compile (by decide) compiles
  rw [Invocation.compile_define identifier isChain] at compiles
  obtain ⟨place, handled, others⟩ := bind_eq_ok.mp compiles
  obtain ⟨steps, -, same⟩ := bind_eq_ok.mp others
  cases same
  cases (schemaName?_token identifier).symm.trans named
  have place_eq : place = handle := by
    have there := getElem?_of_handle handled
    obtain ⟨valid, -⟩ := List.getElem?_eq_some_iff.mp there
    exact (List.getElem?_inj valid distinct).mp (there.trans here.symm)
  subst place_eq
  have defined : ((Step.definitionsOfAll root).find? fun definition =>
      definition.1 = place).isSome :=
    List.find?_isSome.mpr ⟨_, within List.mem_cons_self, decide_eq_true rfl⟩
  obtain ⟨definition, found⟩ := Option.isSome_iff_exists.mp defined
  refine ⟨definition.2, ?_⟩
  show Template.bodyOf _ place lexeme.value = _
  unfold Template.bodyOf
  rw [found]

/-! ### Templates -/

/-- Suffixes are cut off a well-formed chain. -/
theorem Formed.takeWhile_eq (formed : Formed chain) (suffixes : List Suffix) :
    (chain ++ suffixes.map Suffix.node).takeWhile (fun param => !param.isSuffix) = chain ∧
      (chain ++ suffixes.map Suffix.node).dropWhile (fun param => !param.isSuffix) =
        suffixes.map Suffix.node := by
  have plain : ∀ param ∈ chain, (!param.isSuffix) = true := by
    intro param member
    obtain ⟨invocation, rfl⟩ := exists_invocation formed.invocations member
    have form := formed.occurring (.root member)
    exact (Bool.not_eq_true' _).mpr form.not_isSuffix
  have stops := Suffix.head_nodes suffixes
  constructor
  · rw [List.takeWhile_append_of_pos plain]
    have nothing := LexicalUnit.takeWhile_append stops []
    rw [List.nil_append] at nothing
    rw [nothing]
    exact List.append_nil _
  · rw [List.dropWhile_append_of_pos plain]
    exact LexicalUnit.dropWhile_append stops []

/-- **How a well-formed chain with suffixes behind it is compiled.** -/
theorem Formed.ofForest_eq (formed : Formed chain) (suffixes : List Suffix) :
    Template.ofForest (chain ++ suffixes.map Suffix.node) =
      (declareAll [] chain >>= fun names => compileChain names [] chain >>= fun root =>
        names.zipIdx.mapM (fun (name, handle) =>
          Template.bodyOf (Step.definitionsOfAll root) handle name) >>= fun bodies =>
            .ok ⟨root, bodies, suffixes⟩) := by
  obtain ⟨front, behind⟩ := formed.takeWhile_eq suffixes
  have invocations : areInvocations (chain ++ suffixes.map Suffix.node) = true := by
    have nodes : areInvocations (suffixes.map Suffix.node) = true := by
      rw [areInvocations, List.all_map, List.all_eq_true]
      exact fun _ _ => rfl
    have here := formed.invocations
    unfold areInvocations at *
    rw [List.all_append, here, nodes]
    rfl
  have checks : checkSuffixes (suffixes.map Suffix.node) = .ok () :=
    checkSuffixes_append (show checkSuffixes [] = .ok () from rfl) suffixes
  have nonempty : chain.isEmpty = false := by
    simpa using formed.nonempty
  have declares : declareAll [] (chain ++ suffixes.map Suffix.node) = declareAll [] chain := by
    rw [declareAll_append]
    cases declareAll [] chain with
    | error _ => rfl
    | ok names => exact Suffix.declareAll_nodes suffixes names
  unfold Template.ofForest
  simp only [invocations, front, behind, checks, nonempty, declares,
    Suffix.mapM_compileSuffix_nodes]
  rfl

/-- **An error on the way to a template tells of a violation.** -/
theorem Formed.violates (formed : Formed chain) (suffixes : List Suffix) {error : CompileError}
    (fails : Template.ofForest (chain ++ suffixes.map Suffix.node) = .error error) :
    Violates chain error := by
  rw [formed.ofForest_eq] at fails
  rcases bind_eq_error.mp fails with undeclared | ⟨names, declares, later⟩
  · obtain ⟨name, rfl, twice⟩ :=
      declareAll_error formed chain [] error (fun _ member => ⟨[], .root member⟩) undeclared
    exact .duplicateSchema twice
  · have listed : names = schemaNames chain := declareAll_eq chain [] names declares
    have distinct := (declareAll_grows chain _ _ declares).distinct List.nodup_nil
    subst listed
    rcases bind_eq_error.mp later with uncompiled | ⟨root, compiled, last⟩
    · exact violates_of_compileChain formed chain [] error (fun _ member => .root member) uncompiled
    · obtain ⟨bodies, found⟩ := formed.exists_bodies distinct compiled
      rw [found] at last
      cases last

/-- **A well-formed chain compiles, with any suffixes behind it, if and only if it is
admissible.** -/
theorem Formed.isOk_iff (formed : Formed chain) (suffixes : List Suffix) :
    (∃ template, Template.ofForest (chain ++ suffixes.map Suffix.node) = .ok template) ↔
      Admissible chain := by
  rw [admissible_iff]
  constructor
  · rintro ⟨template, compiles⟩
    rw [formed.ofForest_eq] at compiles
    obtain ⟨names, declares, later⟩ := bind_eq_ok.mp compiles
    obtain ⟨root, compiled, -⟩ := bind_eq_ok.mp later
    have listed : names = schemaNames chain := declareAll_eq chain [] names declares
    have distinct := (declareAll_grows chain _ _ declares).distinct List.nodup_nil
    subst listed
    exact formed.not_violates distinct compiled
  · intro none
    cases compiles : Template.ofForest (chain ++ suffixes.map Suffix.node) with
    | ok template => exact ⟨template, rfl⟩
    | error error => exact absurd (formed.violates suffixes compiles) (none error)

end Param

end Schemata
