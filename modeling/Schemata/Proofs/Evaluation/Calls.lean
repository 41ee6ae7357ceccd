/-
**How many calls are active at once.**

A schema calls another one directly if its definition names the other one outside of all fields of
objects and items of arrays. If no schema reaches itself by such calls, the calls at one place are
of different schemas, and a run can only make more of them inside a member of its value, which is
less deep.

* `Param.calledNames` lists the schemas that some parameters call on their own value, and
  `Param.CallsDirectly` relates the schemas of a forest by what their definitions call;
* `Template.Compiles.callsDirectly`: a call between handles is a direct call between their names, so
  `Template.Compiles.grounded`: if no name reaches itself, no handle does;
* `Step.Visits.callCount_add_le`: what the calls that are active at a visit cost of the depth of the
  value;
* `Template.validate_within_calls`: a run ends, with at most as many calls active at once as there
  are named schemas, for each level of its value.
-/

import Schemata.Proofs.Compilation.Admission
import Schemata.Proofs.Evaluation.Order
import Schemata.Proofs.Evaluation.Termination
import Schemata.Proofs.Template.Soundness

namespace Schemata

/-! ### Calls in forests -/

/-- The validators that go on with the members of their value. -/
def containerNames : List String :=
  ["object", "array"]

mutual

/-- **The schemas that an invocation calls on its own value**, by definitions and references that
stand in no field of an object and in no item of an array. -/
def Invocation.calledNames : Invocation → List String
  | .mk validator params _ =>
    if validator ∈ containerNames then []
    else (if validator ∈ schemaKeywords then (Param.schemaName? params).toList else []) ++
      Param.calledNames params

/-- The schemas that some parameters call on their own value. -/
def Param.calledNames : List Param → List String
  | [] => []
  | param :: rest => Param.calledNamesOf param ++ Param.calledNames rest

/-- The schemas that a parameter calls on its own value. -/
def Param.calledNamesOf : Param → List String
  | .validator invocation => invocation.calledNames
  | _ => []

end

mutual

/-- The calls of the schemas that are defined in an invocation, each behind the name of its
caller. -/
def Invocation.directCalls : Invocation → List (String × String)
  | .mk validator params _ =>
    (if validator = "define" then
      (Param.schemaName? params).toList.flatMap fun caller =>
        (Param.calledNames params).map (caller, ·)
    else []) ++ Param.directCalls params

/-- The calls of the schemas that are defined in some parameters. -/
def Param.directCalls : List Param → List (String × String)
  | [] => []
  | param :: rest => Param.directCallsOf param ++ Param.directCalls rest

/-- The calls of the schemas that are defined in a parameter. -/
def Param.directCallsOf : Param → List (String × String)
  | .validator invocation => invocation.directCalls
  | _ => []

end

/-- **A schema of a forest calls another one directly**: its definition names the other one outside
of all fields of objects and items of arrays. -/
def Param.CallsDirectly (forest : List Param) (caller called : String) : Prop :=
  (caller, called) ∈ Param.directCalls forest

/-- What an invocation calls is called where it stands. -/
theorem Param.calledNames_subset_of_mem {params : List Param} {invocation : Invocation}
    (member : .validator invocation ∈ params) : invocation.calledNames ⊆ calledNames params :=
  subset_of_mem calledNamesOf (fun _ _ => rfl) member

/-- **A definition that occurs in a forest calls directly what its body calls.** -/
theorem Param.Occurs.callsDirectly {forest : List Param} {scopes : List Scope} {params : List Param}
    {tag : Option ErrorTag} {caller called : String}
    (occurs : Occurs forest scopes (.mk "define" params tag))
    (named : schemaName? params = some caller)
    (calls : called ∈ calledNames params) : CallsDirectly forest caller called := by
  have collects {params : List Param} {child : Invocation} (member : .validator child ∈ params) :
      child.directCalls ⊆ directCalls params := subset_of_mem directCallsOf (fun _ _ => rfl) member
  refine occurs.subset (fun _ => collects) (fun _ _ _ _ member =>
    List.subset_append_of_subset_right _ (collects member)) ?_
  rw [Invocation.directCalls, if_pos rfl, named]
  exact List.mem_append_left _ (by simpa using calls)

/-! ### Calls in chains -/

/-- The steps of a chain are made of its invocations. -/
theorem Param.compiles_of_step {names : List String} {scopes : List Scope} {params : List Param} :
    ∀ {chain : List Step} {step : Step}, compileChain names scopes params = .ok chain →
      step ∈ chain →
      ∃ invocation, .validator invocation ∈ params ∧ invocation.Compiles names scopes step := by
  induction params with
  | nil =>
      intro chain step compiles member
      cases compiles
      cases member
  | cons param rest ih =>
      intro chain step compiles member
      rw [compileChain] at compiles
      obtain ⟨steps, first, inner⟩ := bind_eq_ok.mp compiles
      obtain ⟨others, second, same⟩ := bind_eq_ok.mp inner
      cases same
      rcases List.mem_append.mp member with here | later
      · cases param with
        | validator invocation =>
            obtain ⟨made, makes, same⟩ := bind_eq_ok.mp first
            cases same
            cases List.mem_singleton.mp here
            exact ⟨invocation, List.mem_cons_self, Invocation.compiles_of_ok makes⟩
        | token | text | injection | comparison =>
            cases first
            cases here
      · obtain ⟨invocation, there, compiled⟩ := ih second later
        exact ⟨invocation, List.mem_cons_of_mem _ there, compiled⟩

/-- **A step calls the handle of a name that its invocation calls.** -/
theorem Invocation.Compiles.exists_calledName {names : List String} {scopes : List Scope}
    {invocation : Invocation} {step : Step} (compiled : invocation.Compiles names scopes step)
    {handle : Nat} (calls : step.calledHere? = some handle) :
    ∃ name, Param.handle names name = .ok handle ∧ name ∈ invocation.calledNames := by
  cases compiled with
  | check checks =>
      have check := checks.spec.1
      cases step with
      | object | array | call | define => cases check
      | _ => cases calls
  | object | array => cases calls
  | @definition param rest name place chain named handled _ _ _ =>
      cases calls
      refine ⟨name, handled, ?_⟩
      rw [calledNames, if_neg (by decide), if_pos (by decide)]
      refine List.mem_append_left _ (Option.mem_toList.mpr ?_)
      exact Param.schemaName_eq_ok_iff.mp named
  | @reference params name place named handled =>
      cases calls
      refine ⟨name, handled, ?_⟩
      rw [calledNames, if_neg (by decide), if_pos (by decide)]
      exact List.mem_append_left _ (Option.mem_toList.mpr (Param.schemaName_eq_ok_iff.mp named))

/-! ### Definitions -/

section Definitions

variable {holds : Step → Prop} {handle : Nat} {body : List Step}

mutual

/-- What holds everywhere in a step holds of the definitions inside it. -/
theorem Step.everywhere_definition : (step : Step) → step.Everywhere holds →
    (handle, body) ∈ step.definitions → holds (.define handle body)
  | .object fields _, everywhere, member => Field.everywhere_definition fields everywhere.2 member
  | .array chain _, everywhere, member => Step.chainEverywhere_definition chain everywhere.2 member
  | .define _ chain, everywhere, member => by
      rcases List.mem_cons.mp member with same | inside
      · cases same
        exact everywhere.1
      · exact Step.chainEverywhere_definition chain everywhere.2 inside
  | .primitive _ _, _, member | .equality _ _ _, _, member | .membership _ _, _, member
  | .matching _ _ _, _, member | .comparison _ _ _, _, member | .lengthComparison _ _ _, _, member
  | .call _, _, member => nomatch member

theorem Step.chainEverywhere_definition : (chain : List Step) → Step.ChainEverywhere holds chain →
    (handle, body) ∈ Step.definitionsOfAll chain → holds (.define handle body)
  | [], _, member => nomatch member
  | step :: rest, everywhere, member => by
      rcases List.mem_append.mp member with here | later
      · exact Step.everywhere_definition step everywhere.1 here
      · exact Step.chainEverywhere_definition rest everywhere.2 later

theorem Field.everywhere_definition : (fields : List Field) → Field.AllEverywhere holds fields →
    (handle, body) ∈ Field.definitionsOfAll fields → holds (.define handle body)
  | [], _, member => nomatch member
  | .mk _ chain _ :: rest, everywhere, member => by
      rcases List.mem_append.mp member with here | later
      · exact Step.chainEverywhere_definition chain everywhere.1 here
      · exact Field.everywhere_definition rest everywhere.2 later

end

end Definitions

namespace Template.Compiles

variable {forest : List Param} {names : List String} {template : Template}

/-- **The body of a handle is made of the definition of its name.** -/
theorem of_definition (compiled : Compiles forest names template) {handle : Nat} {body : List Step}
    (found : template.bodies[handle]? = some body) :
    ∃ outer param params tag name scopes,
      Param.Occurs forest outer (.mk "define" (param :: params) tag) ∧
      Param.schemaName? (param :: params) = some name ∧ Param.handle names name = .ok handle ∧
      Param.compileChain names scopes params = .ok body := by
  let occurring : Invocation → Prop :=
    fun invocation => ∃ scopes, Param.Occurs forest scopes invocation
  have everywhere : Step.ChainEverywhere (fun step => ∃ invocation scopes, occurring invocation ∧
      invocation.Compiles names scopes step) template.root :=
    Param.compileChain_everywhere
      (fun _ _ _ _ (occurs : occurring _) member => occurs.elim fun _ occurs => occurs.child member)
      (fun invocation scopes step occurs compiled => ⟨invocation, scopes, occurs, compiled⟩) _
      (fun _ member => ⟨_, .root (List.takeWhile_subset _ member)⟩) _ _ compiled.root
  obtain ⟨definition, first, rfl⟩ := compiled.find?_of_body found
  have handled : definition.1 = handle := by simpa using List.find?_some first
  subst handled
  obtain ⟨invocation, scopes, ⟨outer, occurs⟩, made⟩ :=
    Step.chainEverywhere_definition _ everywhere (List.mem_of_find?_eq_some first)
  cases made with
  | check checks => cases checks.spec.1
  | definition named place _ _ steps =>
      exact ⟨outer, _, _, _, _, scopes, occurs, Param.schemaName_eq_ok_iff.mp named, place, steps⟩

/-- **A call between handles is a direct call between their names.** -/
theorem callsDirectly (compiled : Compiles forest names template) {caller called : Nat}
    (calls : Step.CallsHere template.bodies caller called) :
    ∃ callerName calledName, names[caller]? = some callerName ∧ names[called]? = some calledName ∧
      Param.CallsDirectly forest callerName calledName := by
  obtain ⟨body, found, step, member, calling⟩ := calls
  obtain ⟨outer, param, params, tag, callerName, scopes, occurs, named, callerHandled, steps⟩ :=
    compiled.of_definition found
  obtain ⟨invocation, there, made⟩ := Param.compiles_of_step steps member
  obtain ⟨calledName, calledHandled, names⟩ := made.exists_calledName calling
  exact ⟨callerName, calledName, Param.getElem?_of_handle callerHandled,
    Param.getElem?_of_handle calledHandled, occurs.callsDirectly named
      (Param.calledNames_subset_of_mem (List.mem_cons_of_mem _ there) names)⟩

/-- **If no name reaches itself by direct calls, no handle does.** -/
theorem grounded (compiled : Compiles forest names template)
    (acyclic : ∀ name, ¬ Relation.TransGen (Param.CallsDirectly forest) name name) :
    template.Grounded := by
  intro handle path
  refine acyclic _ (path.lift (fun place => (names[place]?).getD "") fun caller called calls => ?_)
  obtain ⟨callerName, calledName, callerNamed, calledNamed, direct⟩ := compiled.callsDirectly calls
  show Param.CallsDirectly forest ((names[caller]?).getD "") ((names[called]?).getD "")
  rw [callerNamed, calledNamed]
  exact direct

end Template.Compiles

/-! ### Active calls -/

namespace Step

section Active

variable {bodies : List (List Step)} {bindings : Bindings} {budget : Nat} {root : List Step}
  {value : Json} {known : Meta} {left : Nat} {before : List Moment} {spot : Spot} {index : Nat}
  {chain : List Step} {given : Json} {now : Meta}

/-- A member is less deep than its container, by all the calls that its place may use up. -/
theorem mul_depth_add_le (count : Nat) {inner outer : Nat} (less : inner < outer) :
    count * inner + count ≤ count * outer := by
  rw [← Nat.mul_succ]
  exact Nat.mul_le_mul_left count less

/-- **What the active calls cost of the depth of the value.** Where a member is entered, the calls
at the place of its container have used up one level. -/
theorem Visits.callCount_add_le
    (grounded : ∀ handle, ¬ Relation.TransGen (CallsHere bodies) handle handle)
    (visit : Visits bodies bindings budget root value known left before spot index chain
      given now) :
    spot.callCount + bodies.length * given.depth ≤
      bodies.length * value.depth + spot.callsHere.length := by
  induction visit with
  | root => exact Nat.le_of_eq (Nat.add_comm _ _)
  | @next left before spot index step rest given result now after events visit passes ih =>
      have shallow := validate_shallow (invokeWithin_shallow left) step given _ _ _ passes rfl
      exact Nat.le_trans (Nat.add_le_add_left (Nat.mul_le_mul_left _ shallow) _) ih
  | @field left before spot index done later name chain publishes tag rest members now outcome
    visit _ ih =>
      have few := visit.callsHere_length_le grounded
      have level := mul_depth_add_le bodies.length (Json.depth_find?_lt name members)
      simp only [Spot.callCount, Spot.callsHere, Turn.handle?, List.countP_cons] at ih ⊢
      simp only [Option.isSome_none, Bool.false_eq_true, if_false, List.length_nil]
      omega
  | @item left before spot index chain tag rest done later given now outcome visit _ ih =>
      have few := visit.callsHere_length_le grounded
      have level := mul_depth_add_le bodies.length (Json.depth_item_lt done later given)
      simp only [Spot.callCount, Spot.callsHere, Turn.handle?, List.countP_cons] at ih ⊢
      simp only [Option.isSome_none, Bool.false_eq_true, if_false, List.length_nil]
      omega
  | reference _ _ ih | definition _ _ ih =>
      simp only [Spot.callCount, Spot.callsHere, Turn.handle?, List.countP_cons] at ih ⊢
      simp only [Option.isSome_some, if_true, List.length_cons]
      omega

/-- **At most as many calls are active as there are named schemas, for each level of the value.** -/
theorem Visits.callCount_le
    (grounded : ∀ handle, ¬ Relation.TransGen (CallsHere bodies) handle handle)
    (visit : Visits bodies bindings budget root value known left before spot index chain
      given now) :
    spot.callCount ≤ bodies.length * (value.depth + 1) := by
  have cost := visit.callCount_add_le grounded
  have few := visit.callsHere_length_le grounded
  rw [Nat.mul_succ]
  omega

end Active

end Step

namespace Template

variable {template : Template} {bindings : Bindings} {value : Json} {known : Meta}

/-- The calls at one place leave room for the call of a schema that is not among them. -/
theorem Grounded.stepCallsBounded (grounded : template.Grounded) (coherent : template.Coherent)
    (sound : Step.ChainEverywhere (Step.Sound template.bodies.length) template.root)
    (budget : Nat) :
    Step.CallsBounded template.bodies bindings budget template.root value known
      template.bodies.length where
  active begun := by
    obtain ⟨left, before, rest, visit⟩ := Step.begun_mem_iff_visits.mp begun
    exact visit.callsHere_length_le grounded
  room {spot index step given now handle} begun calls := by
    obtain ⟨left, before, rest, visit⟩ := Step.begun_mem_iff_visits.mp begun
    have valid : handle < template.bodies.length := by
      refine (Step.everywhere_stepAt sound (visit.step_at coherent)).here.calls handle ?_
      cases step <;> exact calls
    exact (visit.callPath.call calls (List.getElem?_eq_getElem valid)).length_le grounded

/-- **If no schema reaches itself by direct calls, every run ends, and never has more calls active
at once than there are named schemas for each level of its value.** It needs no larger budget, and
none of its moments has more active calls. -/
theorem validate_within_calls {text : String} {forest : List Param}
    (parses : Grammar.parse text = .ok forest) (compiles : ofText text = .ok template)
    (unsuffixed : template.suffixes = [])
    (acyclic : ∀ name, ¬ Relation.TransGen (Param.CallsDirectly forest) name name)
    (bindings : Bindings) (value : Json) (known : Meta) :
    (∃ outcome, template.validate bindings value known = some outcome ∧
      Step.validateChain bindings (Step.invokeWithin template.bodies bindings
        (template.schemaCount * (value.depth + 1))) template.root value known = some outcome) ∧
    ∀ budget spot index step given now,
      .begun spot index step given now ∈ template.moments bindings budget value known →
      spot.callCount ≤ template.schemaCount * (value.depth + 1) := by
  have made := ofText_eq parses ▸ compiles
  obtain ⟨names, compiled⟩ := ofForest_eq_ok_iff.mp made
  have grounded := compiled.grounded acyclic
  refine ⟨?_, fun budget spot index step given now begun => ?_⟩
  · have bounded :
        ∀ budget, Step.CallsBounded template.bodies bindings budget template.root value known
        template.bodies.length :=
      grounded.stepCallsBounded (ofText_coherent compiles) (ofText_sound compiles)
    obtain ⟨outcome, ends⟩ := Step.validateChain_ends_of_callsBounded (bounded _)
    rw [Nat.mul_comm] at ends
    refine ⟨outcome, ?_, ends⟩
    rw [validate_of_plain unsuffixed]
    exact Step.validateChain_eq_some_iff.mpr ⟨_, ends⟩
  · obtain ⟨left, before, rest, visit⟩ := Step.begun_mem_iff_visits.mp begun
    exact visit.callCount_le grounded

/-- A tree calls its node directly, and a node its trees only inside an array. -/
theorem validate_within_calls_tree : ∃ forest template,
    Grammar.parse "#tree(##node) : #node(@o(l: @a(##tree)))" = .ok forest ∧
    ofText "#tree(##node) : #node(@o(l: @a(##tree)))" = .ok template ∧ template.suffixes = [] ∧
    (∀ name, ¬ Relation.TransGen (Param.CallsDirectly forest) name name) ∧
    (∃ outcome, template.validate .empty (.object [("l", .array [.null])]) .empty = some outcome ∧
      Step.validateChain .empty (Step.invokeWithin template.bodies .empty (2 * (2 + 1)))
        template.root (.object [("l", .array [.null])]) .empty = some outcome) ∧
    ∀ budget spot index step given now,
      .begun spot index step given now ∈
        template.moments .empty budget (.object [("l", .array [.null])]) .empty →
      spot.callCount ≤ 2 * (2 + 1) := by
  let body : List Step := [.object [.mk "l" [.array [.call 0] none] false] none]
  obtain ⟨forest, parses⟩ : ∃ forest, Grammar.parse "#tree(##node) : #node(@o(l: @a(##tree)))" =
      .ok forest := ⟨_, by cbv⟩
  have compiles : ofText "#tree(##node) : #node(@o(l: @a(##tree)))" =
      .ok ⟨[.define 0 [.call 1], .define 1 body], [[.call 1], body], []⟩ := by cbv
  have calls : (Grammar.parse "#tree(##node) : #node(@o(l: @a(##tree)))").map Param.directCalls =
      .ok [("tree", "node")] := by cbv
  rw [parses] at calls
  have listed : Param.directCalls forest = [("tree", "node")] := Except.ok.inj calls
  have acyclic : ∀ name, ¬ Relation.TransGen (Param.CallsDirectly forest) name name := by
    intro name cycle
    obtain ⟨_, first, -⟩ := Relation.TransGen.head'_iff.mp cycle
    obtain ⟨_, -, last⟩ := Relation.TransGen.tail'_iff.mp cycle
    rw [Param.CallsDirectly, listed, List.mem_singleton] at first last
    exact absurd ((Prod.mk.inj first).1.symm.trans (Prod.mk.inj last).2) (by decide)
  exact ⟨forest, _, parses, compiles, rfl, acyclic,
    validate_within_calls parses compiles rfl acyclic .empty
      (.object [("l", .array [.null])]) .empty⟩

end Template

end Schemata
