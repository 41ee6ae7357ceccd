/-
**The table of named schemas.**

A template keeps the chains of its named schemas in a table and calls them by their places in it.
Names are declared in one pass over the forest and chains are made in another one, which does not
come into references.

* `Param.nodes` lists the nodes of a forest, an outer one before those inside it, and
  `Param.reached` those that the compiler comes to;
* `Param.compileChain_reached`: the steps of a chain, an outer one before those inside it, are made
  of the nodes that are reached, one of each;
* `Param.declareAll_definitions`: the declared names are those of the definitions, wherever they
  stand;
* `Template.Compiles.definitions_reached`: in a forest with a template both passes come to the same
  definitions, so they stand in the table as they stand in the forest;
* `Template.ofForest_tabulated`: every definition has one place in the table, with its chain, and
  every call runs the chain of the one definition that it names.
-/

import Mathlib.Data.List.Forall2
import Schemata.Proofs.Compilation.Shapes
import Schemata.Proofs.Template.Soundness

namespace Schemata

/-! ### Nodes -/

mutual

/-- **The nodes of an invocation**: itself, and then those inside it. -/
def Invocation.nodes : Invocation → List Invocation
  | .mk validator params tag => .mk validator params tag :: Param.nodes params

/-- The nodes of some parameters. -/
def Param.nodes : List Param → List Invocation
  | [] => []
  | param :: rest => Param.nodesOf param ++ Param.nodes rest

/-- The nodes of a parameter. -/
def Param.nodesOf : Param → List Invocation
  | .validator invocation => invocation.nodes
  | _ => []

end

mutual

/-- **The nodes of an invocation that the compiler comes to**: those that stand in no reference. -/
def Invocation.reached : Invocation → List Invocation
  | .mk validator params tag =>
    .mk validator params tag :: if validator = "reference" then [] else Param.reached params

/-- The nodes of some parameters that the compiler comes to. -/
def Param.reached : List Param → List Invocation
  | [] => []
  | param :: rest => Param.reachedOf param ++ Param.reached rest

/-- The nodes of a parameter that the compiler comes to. -/
def Param.reachedOf : Param → List Invocation
  | .validator invocation => invocation.reached
  | _ => []

end

namespace Invocation

/-- A node is a definition. -/
def isDefinition (node : Invocation) : Bool :=
  node.name = "define"

theorem isDefinition_mk {validator : String} {params : List Param} {tag : Option ErrorTag} :
    (mk validator params tag).isDefinition = true ↔ validator = "define" :=
  decide_eq_true_iff

/-- A node is a definition or a reference. -/
def callsSchema (node : Invocation) : Bool :=
  node.name ∈ schemaKeywords

/-- The name of the schema that a node defines or refers to. -/
def schemaName? (node : Invocation) : Option String :=
  Param.schemaName? node.params

end Invocation

/-- **The definitions of a forest**, wherever they stand, an outer one before those inside it. -/
def Param.definitions (forest : List Param) : List Invocation :=
  (nodes forest).filter Invocation.isDefinition

mutual

theorem Invocation.reached_sublist :
    (invocation : Invocation) → invocation.reached.Sublist invocation.nodes
  | .mk validator params tag => by
      rw [Invocation.reached, Invocation.nodes]
      by_cases reference : validator = "reference"
      · rw [if_pos reference]
        exact (List.nil_sublist _).cons_cons _
      · rw [if_neg reference]
        exact (Param.reached_sublist params).cons_cons _

/-- The nodes that are reached are nodes, in their order. -/
theorem Param.reached_sublist :
    (params : List Param) → (Param.reached params).Sublist (Param.nodes params)
  | [] => List.Sublist.slnil
  | param :: rest => (Param.reachedOf_sublist param).append (Param.reached_sublist rest)

theorem Param.reachedOf_sublist :
    (param : Param) → (Param.reachedOf param).Sublist (Param.nodesOf param)
  | .validator invocation => Invocation.reached_sublist invocation
  | .token _ | .text _ | .injection _ | .comparison _ => List.Sublist.slnil

end

theorem Param.reached_append (first second : List Param) :
    reached (first ++ second) = reached first ++ reached second := by
  induction first with
  | nil => rfl
  | cons param rest ih => rw [List.cons_append, reached, reached, ih, List.append_assoc]

/-- Where no invocations stand, nothing is reached. -/
theorem Param.reached_eq_nil {params : List Param}
    (plain : ∀ param ∈ params, param.invocation? = none) :
    reached params = [] := by
  induction params with
  | nil => rfl
  | cons param rest ih =>
      rw [reached, ih fun other member => plain other (List.mem_cons_of_mem _ member)]
      have own := plain param List.mem_cons_self
      cases param with
      | validator invocation => cases own
      | _ => rfl

/-- Suffixes call no schemas. -/
theorem Suffix.filter_reached (suffixes : List Suffix) :
    (Param.reached (suffixes.map node)).filter Invocation.callsSchema = [] := by
  induction suffixes with
  | nil => rfl
  | cons suffix rest ih =>
      rw [List.map_cons, Param.reached, List.filter_append, ih, List.append_nil]
      rcases suffix with (_ | index) | _ <;> rfl

/-! ### Steps -/

mutual

/-- **The steps of a step**: itself, and then those inside it. -/
def Step.steps : Step → List Step
  | .object fields tag => .object fields tag :: Field.stepsOfAll fields
  | .array chain tag => .array chain tag :: Step.stepsOfAll chain
  | .define handle chain => .define handle chain :: Step.stepsOfAll chain
  | step => [step]

/-- The steps of a chain. -/
def Step.stepsOfAll : List Step → List Step
  | [] => []
  | step :: rest => step.steps ++ Step.stepsOfAll rest

/-- The steps of some fields. -/
def Field.stepsOfAll : List Field → List Step
  | [] => []
  | .mk _ chain _ :: rest => Step.stepsOfAll chain ++ Field.stepsOfAll rest

end

namespace Step

/-- The handle and the chain that a step defines. -/
def definition? : Step → Option (Nat × List Step)
  | .define handle chain => some (handle, chain)
  | _ => none

theorem stepsOfAll_append (first second : List Step) :
    stepsOfAll (first ++ second) = stepsOfAll first ++ stepsOfAll second := by
  induction first with
  | nil => rfl
  | cons step rest ih => rw [List.cons_append, stepsOfAll, stepsOfAll, ih, List.append_assoc]

mutual

theorem filterMap_steps : (step : Step) → step.steps.filterMap definition? = step.definitions
  | .object fields _ => Field.filterMap_stepsOfAll fields
  | .array chain _ => filterMap_stepsOfAll chain
  | .define handle chain => congrArg ((handle, chain) :: ·) (filterMap_stepsOfAll chain)
  | .primitive _ _ | .equality _ _ _ | .membership _ _ | .matching _ _ _ | .comparison _ _ _
  | .lengthComparison _ _ _ | .call _ => rfl

/-- The definitions of a chain are among its steps. -/
theorem filterMap_stepsOfAll : (chain : List Step) →
    (stepsOfAll chain).filterMap definition? = definitionsOfAll chain
  | [] => rfl
  | step :: rest => by
      rw [stepsOfAll, definitionsOfAll, List.filterMap_append, filterMap_steps step,
        filterMap_stepsOfAll rest]

theorem Field.filterMap_stepsOfAll : (fields : List Field) →
    (Field.stepsOfAll fields).filterMap definition? = Field.definitionsOfAll fields
  | [] => rfl
  | .mk _ chain _ :: rest => by
      rw [Field.stepsOfAll, Field.definitionsOfAll, List.filterMap_append,
        filterMap_stepsOfAll chain, Field.filterMap_stepsOfAll rest]
      rfl

end

end Step

/-! ### Steps of nodes -/

/-- **A step is made of a node**, inside the objects around the node. -/
def Invocation.Makes (forest : List Param) (names : List String) (node : Invocation)
    (step : Step) : Prop :=
  ∃ scopes, Param.Occurs forest scopes node ∧ node.Compiles names scopes step

/-- No steps stand before the first field of an object. -/
theorem Param.compileFields_first {names : List String} {scopes : List Scope}
    {declared referenced : List String} {params : List Param} {counts : List (String × Nat)} :
    ∀ {first : List Step} {fields : List Field}, countFields [] params = .ok counts →
      compileFields names scopes declared referenced 0 params = .ok (first, fields) →
      first = [] := by
  induction params with
  | nil =>
      intro first fields _ compiles
      cases compiles
      rfl
  | cons param rest ih =>
      intro first fields counted compiles
      rw [compileFields] at compiles
      split at compiles
      · obtain ⟨_, -, same⟩ := bind_eq_ok.mp compiles
        cases same
        rfl
      · rename_i unnamed
        obtain ⟨one, own, inner⟩ := bind_eq_ok.mp compiles
        obtain ⟨⟨steps, others⟩, later, same⟩ := bind_eq_ok.mp inner
        cases same
        cases param with
        | validator _ | injection _ | comparison _ => cases counted
        | text _ => cases unnamed
        | token lexeme =>
            cases own
            simp only [countFields, unnamed] at counted
            exact ih counted later

section Compiled

variable {forest : List Param} {names : List String}

mutual

/-- **The steps of an invocation are made of the nodes that are reached in it**, one of each. -/
theorem Invocation.compile_reached :
    (invocation : Invocation) → ∀ (scopes : List Scope) (step : Step),
    Param.Occurs forest scopes invocation → invocation.compile names scopes = .ok step →
      List.Forall₂ (Invocation.Makes forest names) invocation.reached step.steps
  | .mk validator params tag => by
      have chainReached := Param.compileChain_reached params
      have fieldsReached := Param.compileFields_reached params
      intro scopes step occurs compiles
      have compiled := Invocation.compiles_of_ok compiles
      have here : Invocation.Makes forest names (.mk validator params tag) step :=
        ⟨scopes, occurs, compiled⟩
      rw [Invocation.reached]
      cases compiled with
      | check checks =>
          have empty : (if validator = "reference" then [] else Param.reached params) = [] := by
            rw [Param.reached_eq_nil checks.plain, ite_self]
          rw [empty]
          have check := checks.spec.1
          cases step with
          | object | array | call | define => cases check
          | _ => exact .cons here .nil
      | object declares steps =>
          obtain ⟨counts, counted, -⟩ := bind_eq_ok.mp declares
          cases Param.compileFields_first counted steps
          cases Param.declaredFields_eq declares
          exact .cons here (fieldsReached [] _ _ _ _ _ occurs steps)
      | array _ steps =>
          exact .cons here
            (chainReached _ _ (fun _ member => occurs.inside (by decide) member) steps)
      | definition named _ _ _ steps =>
          exact .cons here (chainReached _ _ (fun _ member => occurs.inside (by decide) member)
            ((Param.compileChain_of_named named).trans steps))
      | reference _ _ => exact .cons here .nil

/-- **The steps of a chain are made of the nodes that are reached in it**, one of each. -/
theorem Param.compileChain_reached :
    (params : List Param) → ∀ (scopes : List Scope) (chain : List Step),
    (∀ invocation, .validator invocation ∈ params → Param.Occurs forest scopes invocation) →
    Param.compileChain names scopes params = .ok chain →
      List.Forall₂ (Invocation.Makes forest names) (Param.reached params) (Step.stepsOfAll chain)
  | [] => by
      intro scopes chain _ compiles
      cases compiles
      exact .nil
  | param :: rest => by
      intro scopes chain occur compiles
      rw [Param.compileChain] at compiles
      obtain ⟨steps, first, inner⟩ := bind_eq_ok.mp compiles
      obtain ⟨others, second, same⟩ := bind_eq_ok.mp inner
      cases same
      rw [Param.reached, Step.stepsOfAll_append]
      exact List.rel_append
        (Param.compileOne_reached param _ _
          (fun _ same => occur _ (same ▸ List.mem_cons_self)) first)
        (Param.compileChain_reached rest _ _
          (fun _ member => occur _ (List.mem_cons_of_mem _ member)) second)

theorem Param.compileOne_reached : (param : Param) → ∀ (scopes : List Scope) (steps : List Step),
    (∀ invocation, param = .validator invocation → Param.Occurs forest scopes invocation) →
    Param.compileOne names scopes param = .ok steps →
      List.Forall₂ (Invocation.Makes forest names) (Param.reachedOf param) (Step.stepsOfAll steps)
  | .validator invocation => by
      intro scopes steps occurs compiles
      rw [Param.compileOne] at compiles
      obtain ⟨step, inner, same⟩ := bind_eq_ok.mp compiles
      cases same
      rw [Step.stepsOfAll, Step.stepsOfAll, List.append_nil]
      exact Invocation.compile_reached invocation _ _ (occurs _ rfl) inner
  | .token _ | .text _ | .injection _ | .comparison _ => by
      intro scopes steps _ compiles
      cases compiles
      exact .nil

/-- The fields of an object, of which those before some parameters are compiled before. -/
theorem Param.compileFields_reached : (params : List Param) →
    ∀ (before : List Param) (scopes : List Scope) (tag : Option ErrorTag) (referenced : List String)
      (first : List Step) (fields : List Field),
      Param.Occurs forest scopes (.mk "object" (before ++ params) tag) →
      Param.compileFields names scopes (Param.fieldNames (before ++ params)) referenced
        (Param.fieldNames before).length params = .ok (first, fields) →
        List.Forall₂ (Invocation.Makes forest names) (Param.reached params)
          (Step.stepsOfAll first ++ Field.stepsOfAll fields)
  | [] => by
      intro before scopes tag referenced first fields _ compiles
      cases compiles
      exact .nil
  | param :: rest => by
      intro before scopes tag referenced first fields occurs compiles
      have later := Param.compileFields_reached rest (before ++ [param]) scopes tag referenced
      rw [List.append_assoc, List.singleton_append] at later
      rw [Param.compileFields] at compiles
      split at compiles
      · rename_i name named
        obtain ⟨⟨steps, others⟩, inner, same⟩ := bind_eq_ok.mp compiles
        cases same
        have silent : Param.reachedOf param = [] := by
          cases param with
          | validator _ => cases named
          | _ => rfl
        have started : (Param.fieldNames (before ++ [param])).length =
            (Param.fieldNames before).length + 1 := by simp [Param.fieldNames, named]
        rw [started] at later
        rw [Param.reached, silent]
        exact later steps others occurs inner
      · rename_i unnamed
        obtain ⟨one, first, inner⟩ := bind_eq_ok.mp compiles
        obtain ⟨⟨steps, others⟩, second, same⟩ := bind_eq_ok.mp inner
        cases same
        have started : (Param.fieldNames (before ++ [param])).length =
            (Param.fieldNames before).length := by simp [Param.fieldNames, unnamed]
        rw [started] at later
        rw [Param.reached, Step.stepsOfAll_append, List.append_assoc]
        have here : ∀ invocation, param = .validator invocation → Param.Occurs forest
            (⟨Param.fieldNames (before ++ param :: rest), (Param.fieldNames before).length - 1⟩ ::
              scopes)
            invocation := by
          rintro invocation rfl
          exact .field occurs
        exact List.rel_append (Param.compileOne_reached param _ _ here first)
          (later _ _ occurs second)

end

/-! ### Calls and definitions -/

namespace Invocation

variable {node : Invocation} {step : Step}

/-- A check names no schema. -/
theorem Checks.callsSchema_eq {scopes : List Scope} (checks : node.Checks scopes step) :
    node.callsSchema = false := by
  cases checks with
  | primitive named _ =>
      refine decide_eq_false fun schema => ?_
      simp only [name, schemaKeywords, List.mem_cons, List.not_mem_nil, or_false] at schema
      rcases schema with rfl | rfl <;> cases named
  | equality equates _ => rcases equates with rfl | rfl <;> rfl
  | comparison compares _ => rcases compares with rfl | rfl <;> rfl
  | membership _ | matching _ => rfl

/-- **Definitions and references call the schemas that they name**, and other nodes call none. -/
theorem Makes.calls (makes : node.Makes forest names step) :
    (node.callsSchema = true ∧ ∃ handle name, step.handle? = some handle ∧
      node.schemaName? = some name ∧
      names[handle]? = some name) ∨ (node.callsSchema = false ∧ step.handle? = none) := by
  obtain ⟨scopes, -, compiled⟩ := makes
  cases compiled with
  | check checks =>
      refine .inr ⟨checks.callsSchema_eq, ?_⟩
      have check := checks.spec.1
      cases step with
      | call | define => cases check
      | _ => rfl
  | object | array => exact .inr ⟨rfl, rfl⟩
  | definition named handled | reference named handled =>
      exact .inl
        ⟨rfl, _, _, rfl, Param.schemaName_eq_ok_iff.mp named, Param.getElem?_of_handle handled⟩

/-- Definitions define their chains, and other nodes define none. -/
theorem Makes.defines (makes : node.Makes forest names step) :
    (node.isDefinition = true ∧ ∃ definition, step.definition? = some definition ∧
      node.Makes forest names (.define definition.1 definition.2)) ∨
    (node.isDefinition = false ∧ step.definition? = none) := by
  obtain ⟨scopes, occurs, compiled⟩ := makes
  have whole := compiled
  cases compiled with
  | check checks =>
      have other := checks.callsSchema_eq
      have check := checks.spec.1
      refine .inr ⟨decide_eq_false fun define => ?_, ?_⟩
      · refine absurd (decide_eq_false_iff_not.mp other) (not_not_intro ?_)
        rw [define]
        exact List.mem_cons_self
      · cases step with
        | define => cases check
        | _ => rfl
  | object | array | reference => exact .inr ⟨rfl, rfl⟩
  | definition => exact .inl ⟨rfl, _, rfl, scopes, occurs, whole⟩

end Invocation

variable {nodes : List Invocation} {steps : List Step}

/-- **The schemas that steps call are those that their nodes name**, one after the other. -/
theorem Step.map_handles (made : List.Forall₂ (Invocation.Makes forest names) nodes steps) :
    (steps.filterMap Step.handle?).map (names[·]?) =
      (nodes.filter Invocation.callsSchema).map Invocation.schemaName? := by
  induction made with
  | nil => rfl
  | cons makes _ ih =>
      rcases makes.calls with ⟨calls, handle, name, called, named, here⟩ | ⟨silent, none⟩
      · rw [List.filter_cons_of_pos calls, List.filterMap_cons_some called, List.map_cons,
          List.map_cons, ih, here, named]
      · rw [List.filter_cons_of_neg (by simp [silent]), List.filterMap_cons_none none, ih]

/-- The definitions among some steps are made of those among their nodes. -/
theorem Step.forall₂_definitions (made : List.Forall₂ (Invocation.Makes forest names) nodes steps) :
    List.Forall₂
      (fun node definition => node.Makes forest names (.define definition.1 definition.2))
      (nodes.filter Invocation.isDefinition) (steps.filterMap Step.definition?) := by
  induction made with
  | nil => exact .nil
  | cons makes _ ih =>
      rcases makes.defines with ⟨defines, definition, found, makes⟩ | ⟨silent, none⟩
      · rw [List.filter_cons_of_pos defines, List.filterMap_cons_some found]
        exact .cons makes ih
      · rwa [List.filter_cons_of_neg (by simp [silent]), List.filterMap_cons_none none]

end Compiled

/-! ### Declared names -/

mutual

theorem Invocation.declare_definitions : (invocation : Invocation) → ∀ (names after : List String),
    invocation.declare names = .ok after → ∃ added, after = names ++ added ∧
      (invocation.nodes.filter Invocation.isDefinition).map Invocation.schemaName? = added.map some
  | .mk validator params tag => by
      intro names after declares
      rw [Invocation.declare] at declares
      rw [Invocation.nodes]
      by_cases define : validator = "define"
      · rw [if_pos define] at declares
        obtain ⟨name, named, inner⟩ := bind_eq_ok.mp declares
        split at inner
        · cases inner
        · obtain ⟨added, rfl, same⟩ := Param.declareAll_definitions params _ _ inner
          refine ⟨name :: added, List.append_assoc _ _ _, ?_⟩
          rw [Param.definitions] at same
          rw [List.filter_cons_of_pos (Invocation.isDefinition_mk.mpr define), List.map_cons, same,
            List.map_cons]
          exact congrArg (· :: added.map some) (Param.schemaName_eq_ok_iff.mp named)
      · rw [if_neg define] at declares
        rw [List.filter_cons_of_neg (Invocation.isDefinition_mk.not.mpr define)]
        exact Param.declareAll_definitions params _ _ declares

/-- **The declared names are those of the definitions**, wherever these stand. -/
theorem Param.declareAll_definitions : (params : List Param) → ∀ (names after : List String),
    Param.declareAll names params = .ok after → ∃ added, after = names ++ added ∧
      (Param.definitions params).map Invocation.schemaName? = added.map some
  | [] => by
      intro names after declares
      cases declares
      exact ⟨[], (List.append_nil _).symm, rfl⟩
  | param :: rest => by
      intro names after declares
      rw [Param.declareAll] at declares
      obtain ⟨middle, first, second⟩ := bind_eq_ok.mp declares
      obtain ⟨own, rfl, ownNamed⟩ := Param.declare_definitions param _ _ first
      obtain ⟨others, rfl, othersNamed⟩ := Param.declareAll_definitions rest _ _ second
      refine ⟨own ++ others, List.append_assoc _ _ _, ?_⟩
      rw [Param.definitions] at othersNamed
      rw [Param.definitions, Param.nodes, List.filter_append, List.map_append, ownNamed,
        othersNamed, List.map_append]

theorem Param.declare_definitions : (param : Param) → ∀ (names after : List String),
    Param.declare names param = .ok after → ∃ added, after = names ++ added ∧
      ((Param.nodesOf param).filter Invocation.isDefinition).map Invocation.schemaName? =
        added.map some
  | .validator invocation => fun names after declares =>
      Invocation.declare_definitions invocation names after declares
  | .token _ | .text _ | .injection _ | .comparison _ => by
      intro names after declares
      cases declares
      exact ⟨[], (List.append_nil _).symm, rfl⟩

end

/-! ### Tables -/

namespace Template

section Compiled

variable {forest : List Param} {names : List String} {template : Template}
  (compiled : Compiles forest names template)
include compiled

/-- The table has one place for each name. -/
theorem Compiles.length_bodies : template.bodies.length = names.length := by
  rw [(mapM_eq_ok compiled.bodies).1, List.length_zipIdx]

/-- **The handles that are defined are all places of the table**, in their order. -/
theorem Compiles.handles_eq : handlesOf (Step.definitionsOfAll template.root) =
    List.range template.bodies.length := by
  have places : (handlesOf (Step.definitionsOfAll template.root)).Sublist
      (List.range template.bodies.length) := by
    have places := compiled.handles_places
    unfold Places at places
    rwa [List.length_nil, Nat.sub_zero, ← compiled.length_bodies, ← List.range_eq_range'] at places
  -- Every place is filled, so the places of definitions are no fewer.
  have filled :
      List.range template.bodies.length ⊆ handlesOf (Step.definitionsOfAll template.root) := by
    intro handle member
    obtain ⟨definition, first, -⟩ :=
      compiled.find?_of_body (List.getElem?_eq_getElem (List.mem_range.mp member))
    have handled : definition.1 = handle := by simpa using List.find?_some first
    exact handled ▸ List.mem_map_of_mem (List.mem_of_find?_eq_some first)
  exact places.eq_of_length_le (List.nodup_range.subperm filled).length_le

theorem Compiles.length_definitionsOfAll :
    (Step.definitionsOfAll template.root).length = template.bodies.length := by
  have handles := congrArg List.length compiled.handles_eq
  rwa [List.length_map, List.length_range] at handles

/-- Definitions have their names. -/
theorem Compiles.definitions_named :
    (Param.definitions forest).map Invocation.schemaName? = names.map some := by
  obtain ⟨added, same, named⟩ := Param.declareAll_definitions forest _ _ compiled.declares
  rw [List.nil_append] at same
  rwa [same]

theorem Compiles.length_definitions :
    (Param.definitions forest).length = template.bodies.length := by
  have named := congrArg List.length compiled.definitions_named
  rwa [List.length_map, List.length_map, ← compiled.length_bodies] at named

/-- The nodes that are reached stand in the chain, and in the suffixes behind it. -/
theorem Compiles.reached_eq : Param.reached forest =
    Param.reached (forest.takeWhile fun param => !param.isSuffix) ++
      Param.reached (template.suffixes.map Suffix.node) := by
  rw [← Param.reached_append, ← Param.eq_nodes_of_compileSuffix compiled.suffixes,
    List.takeWhile_append_dropWhile]

/-- **The steps of a template are made of the nodes of its chain that are reached**, one of each. -/
theorem Compiles.root_reached : List.Forall₂ (Invocation.Makes forest names)
    (Param.reached (forest.takeWhile fun param => !param.isSuffix))
    (Step.stepsOfAll template.root) :=
  Param.compileChain_reached _ _ _
    (fun _ member => .root ((List.takeWhile_prefix _).subset member)) compiled.root

/-- **Both passes come to the same definitions.** -/
theorem Compiles.definitions_reached :
    List.Forall₂
      (fun node definition => node.Makes forest names (.define definition.1 definition.2))
      (Param.definitions forest) (Step.definitionsOfAll template.root) := by
  have made := Step.forall₂_definitions compiled.root_reached
  rw [Step.filterMap_stepsOfAll] at made
  have within : (Param.reached (forest.takeWhile fun param => !param.isSuffix)).Sublist
      (Param.nodes forest) := by
    refine List.Sublist.trans ?_ (Param.reached_sublist forest)
    rw [compiled.reached_eq]
    exact List.sublist_append_left _ _
  have same := (within.filter Invocation.isDefinition).eq_of_length_le
    (by rw [made.length_eq, compiled.length_definitionsOfAll]; exact compiled.length_definitions.le)
  rwa [same] at made

/-- **The chain at a place of the table is that of the definition at the same place of the
forest.** -/
theorem Compiles.exists_definition {handle : Nat} {body : List Step}
    (found : template.bodies[handle]? = some body) :
    ∃ node, (Param.definitions forest)[handle]? = some node ∧
      node.Makes forest names (.define handle body) := by
  have valid := (List.getElem?_eq_some_iff.mp found).1
  obtain ⟨same, made⟩ := List.forall₂_iff_get.mp compiled.definitions_reached
  have here : handle < (Step.definitionsOfAll template.root).length :=
    compiled.length_definitionsOfAll ▸ valid
  have handled : (Step.definitionsOfAll template.root)[handle].1 = handle := by
    have place : (handlesOf (Step.definitionsOfAll template.root))[handle]? = _ :=
      congrArg (·[handle]?) compiled.handles_eq
    rw [List.getElem?_map, List.getElem?_eq_getElem here, List.getElem?_range valid] at place
    exact Option.some.inj place
  have chain : (Step.definitionsOfAll template.root)[handle].2 = body := by
    have defined : ((Step.definitionsOfAll template.root)[handle].1, _) ∈ _ := List.getElem_mem here
    have own := compiled.body_of_definition defined
    rw [handled, found] at own
    exact (Option.some.inj own).symm
  have makes := made handle (same ▸ here) here
  rw [List.get_eq_getElem, List.get_eq_getElem, handled, chain] at makes
  exact ⟨_, List.getElem?_eq_getElem _, makes⟩

end Compiled

/-- The handles that are called in a template, in the order of its steps. -/
def handles (template : Template) : List Nat :=
  (Step.stepsOfAll template.root).filterMap Step.handle?

/-- **A step that calls a handle runs the chain at its place.** -/
def Runs (template : Template) (step : Step) : Prop :=
  ∀ handle, step.handle? = some handle → ∃ body, template.bodies[handle]? = some body ∧
    ∀ bindings, step.validate bindings (Step.invoke template.bodies bindings) =
      Step.validateChain bindings (Step.invoke template.bodies bindings) body

/-- A step runs a chain if all handles that it calls have a place. -/
theorem runs_of_lt {template : Template} {step : Step}
    (placed : ∀ handle, step.handle? = some handle → handle < template.bodies.length) :
    template.Runs step := by
  intro handle calls
  obtain ⟨body, found⟩ : ∃ body, template.bodies[handle]? = some body :=
    ⟨_, List.getElem?_eq_getElem (placed handle calls)⟩
  refine ⟨body, found, fun bindings => ?_⟩
  have invoked : Step.invoke template.bodies bindings handle =
      Step.validateChain bindings (Step.invoke template.bodies bindings) body := by
    funext value known
    rw [Step.invoke, found]
  cases step with
  | call | define =>
      cases calls
      exact invoked
  | _ => cases calls

/-- **The table of a template is that of a forest with these names.** -/
structure Tabulates (template : Template) (forest : List Param) (names : List String) : Prop where
  /-- Each name is that of one definition, and they have the same order. -/
  named : (Param.definitions forest).map Invocation.schemaName? = names.map some
  distinct : names.Nodup
  /-- Each definition has one place. -/
  length : template.bodies.length = (Param.definitions forest).length
  /-- A place holds the chain of its definition, inside the objects around this. -/
  chains : ∀ (handle : Nat) (body : List Step), template.bodies[handle]? = some body →
    ∃ name params scopes,
      (Param.definitions forest)[handle]? = some (.mk "define" (.token name :: params) none) ∧
      names[handle]? = some name.value ∧
      Param.Occurs forest scopes (.mk "define" (.token name :: params) none) ∧
      Param.compileChain names scopes params = .ok body
  /-- What is called is what definitions and references name. -/
  called : template.handles.map (names[·]?) =
    ((Param.reached forest).filter Invocation.callsSchema).map Invocation.schemaName?
  /-- Calls run the chains at their places, wherever they stand. -/
  runs : ∀ chain ∈ template.root :: template.bodies, Step.ChainEverywhere template.Runs chain

/-- **Every definition of a forest has one place in the table of its template, and every call runs
the chain of the definition that it names.** -/
theorem ofForest_tabulated {forest : List Param} {template : Template}
    (compiles : ofForest forest = .ok template) :
    ∃ names, Param.declareAll [] forest = .ok names ∧ template.Tabulates forest names := by
  obtain ⟨names, compiled⟩ := ofForest_eq_ok_iff.mp compiles
  refine ⟨names, compiled.declares, compiled.definitions_named,
    (Param.declareAll_grows _ _ _ compiled.declares).distinct List.nodup_nil,
    compiled.length_definitions.symm, fun handle body found => ?_, ?_, fun chain member => ?_⟩
  · obtain ⟨node, here, scopes, occurs, made⟩ := compiled.exists_definition found
    cases made with
    | check checks => cases checks.spec.1
    | definition named handled _ _ steps =>
        obtain ⟨lexeme, _, same, identifier⟩ := Invocation.exists_token_of_schemaName named
        cases same
        rw [Param.schemaName_eq_ok_iff, Param.schemaName?_token identifier] at named
        cases named
        exact ⟨lexeme, _, scopes, here, Param.getElem?_of_handle handled, occurs, steps⟩
  · rw [handles, Step.map_handles compiled.root_reached, compiled.reached_eq, List.filter_append,
      Suffix.filter_reached, List.append_nil]
  · have runs : Step.ChainEverywhere template.Runs template.root :=
      Step.chainEverywhere_imp (fun _ sound => runs_of_lt sound.calls) _ compiled.sound
    rcases List.mem_cons.mp member with rfl | member
    · exact runs
    · obtain ⟨handle, found⟩ := List.mem_iff_getElem?.mp member
      exact (ofForest_coherent compiles).body_everywhere runs found

/-- A definition inside another one, which is called before its place in the forest is reached. -/
theorem ofForest_tabulated_nested :
    let a : Param := .token ⟨.identifier, "a", true, 0⟩
    let b : Param := .token ⟨.identifier, "b", true, 0⟩
    let inner : Param := .validator (.mk "define" [b, .validator (.mk "reference" [a] none)] none)
    let forest : List Param := [.validator (.mk "reference" [b] none),
      .validator (.mk "define" [a, .validator (.mk "array" [inner] none)] none),
      .validator (.mk "~meta" [] none)]
    ∃ template, ofForest forest = .ok template ∧
      ∃ names, Param.declareAll [] forest = .ok names ∧ template.Tabulates forest names := by
  intro a b inner forest
  have compiles : ofForest forest = .ok ⟨[.call 1, .define 0 [.array [.define 1 [.call 0]] none]],
      [[.array [.define 1 [.call 0]] none], [.call 0]], [.apart]⟩ := by cbv
  exact ⟨_, compiles, ofForest_tabulated compiles⟩

end Template

end Schemata
