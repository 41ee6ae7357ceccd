/-
**Handles and the definitions that they stand for.**

The handle of a name is its place among all the names that are defined, so the definitions of a
compiled schema have their handles in the order in which they are written, each handle once.

* `Invocation.declare_grows`: declaring adds names behind those that are there, none of them twice;
* `Invocation.compile_handles`: the handles inside a compiled invocation are among those that it
  declares, in their order;
* `Template.Compiles.handles_nodup`: no handle is defined twice in a template.
-/

import Mathlib.Data.List.Nodup
import Schemata.Proofs.Compilation.Inversion

namespace Schemata

/-! ### Names -/

/-- Names are added behind those that are there, none of them twice. -/
structure Grows (names after : List String) : Prop where
  grows : names <+: after
  distinct : names.Nodup → after.Nodup

namespace Grows

variable {names middle after : List String}

theorem refl (names : List String) : Grows names names := ⟨List.prefix_rfl, id⟩

theorem trans (first : Grows names middle) (second : Grows middle after) : Grows names after :=
  ⟨first.grows.trans second.grows, fun distinct => second.distinct (first.distinct distinct)⟩

theorem length_le (grown : Grows names after) : names.length ≤ after.length :=
  grown.grows.length_le

end Grows

mutual

/-- **Declaring adds the names of an invocation.** -/
theorem Invocation.declare_grows : (invocation : Invocation) → ∀ (names after : List String),
    invocation.declare names = .ok after → Grows names after
  | .mk validator params tag => by
      intro names after declares
      rw [Invocation.declare] at declares
      by_cases define : validator = "define"
      · rw [if_pos define] at declares
        obtain ⟨name, -, inner⟩ := bind_eq_ok.mp declares
        by_cases present : names.contains name = true
        · rw [if_pos present] at inner
          cases inner
        · rw [if_neg present] at inner
          refine Grows.trans ⟨List.prefix_append _ _, fun distinct => ?_⟩
            (Param.declareAll_grows params _ _ inner)
          rw [List.contains_iff_mem] at present
          exact List.nodup_append.mpr ⟨distinct, List.pairwise_singleton _ name, by
            rintro other member _ here rfl
            cases List.mem_singleton.mp here
            exact present member⟩
      · rw [if_neg define] at declares
        exact Param.declareAll_grows params _ _ declares

theorem Param.declareAll_grows : (params : List Param) → ∀ (names after : List String),
    Param.declareAll names params = .ok after → Grows names after
  | [] => by
      intro names after declares
      cases declares
      exact .refl _
  | param :: rest => by
      intro names after declares
      rw [Param.declareAll] at declares
      obtain ⟨middle, first, second⟩ := bind_eq_ok.mp declares
      exact (Param.declare_grows param _ _ first).trans (Param.declareAll_grows rest _ _ second)

theorem Param.declare_grows : (param : Param) → ∀ (names after : List String),
    Param.declare names param = .ok after → Grows names after
  | .validator invocation => fun names after declares =>
      Invocation.declare_grows invocation names after declares
  | .token _ | .text _ | .injection _ | .comparison _ => by
      intro names after declares
      cases declares
      exact .refl _

end

/-- Names that are declared together are declared one part after the other. -/
theorem Param.declareAll_append (first second : List Param) (names : List String) :
    declareAll names (first ++ second) =
      declareAll names first >>= fun middle => declareAll middle second := by
  induction first generalizing names with
  | nil => rfl
  | cons param rest ih =>
      simp only [List.cons_append, declareAll, bind_assoc, ih]

/-- The handle of a declared name is its place. -/
theorem Param.handle_eq_length {names middle : List String} {name : String} {handle : Nat}
    (distinct : names.Nodup) (declared : middle ++ [name] <+: names)
    (handled : Param.handle names name = .ok handle) : handle = middle.length := by
  obtain ⟨later, rfl⟩ := declared
  have absent : name ∉ middle := by
    intro member
    rw [List.nodup_append, List.nodup_append] at distinct
    exact distinct.1.2.2 name member name List.mem_cons_self rfl
  have place : (middle ++ [name] ++ later).findIdx? (· = name) = some middle.length := by
    rw [List.append_assoc, List.findIdx?_append, List.findIdx?_eq_none_iff.mpr]
    · simp [List.findIdx?_cons]
    · rintro other member
      refine decide_eq_false ?_
      rintro rfl
      exact absent member
  unfold Param.handle at handled
  rw [place] at handled
  cases handled
  rfl

/-! ### Definitions -/

/-- The handles of definitions. -/
abbrev handlesOf (definitions : List (Nat × List Step)) : List Nat :=
  definitions.map Prod.fst

/-- Handles are among the places of the names that are added, in their order. -/
def Places (names after : List String) (handles : List Nat) : Prop :=
  handles.Sublist (List.range' names.length (after.length - names.length))

namespace Places

variable {names middle after : List String} {first second : List Nat}

theorem none (names after : List String) : Places names after [] := List.nil_sublist _

theorem append (firstGrown : Grows names middle) (secondGrown : Grows middle after)
    (firstPlaces : Places names middle first) (secondPlaces : Places middle after second) :
    Places names after (first ++ second) := by
  have lower := firstGrown.length_le
  have upper := secondGrown.length_le
  have whole := List.range'_append_1 (s := names.length) (m := middle.length - names.length)
    (n := after.length - middle.length)
  rw [show names.length + (middle.length - names.length) = middle.length by omega,
    show middle.length - names.length + (after.length - middle.length) =
      after.length - names.length by omega] at whole
  unfold Places
  rw [← whole]
  exact List.Sublist.append firstPlaces secondPlaces

/-- The name of a definition comes before those inside it. -/
theorem cons (name : String) (grown : Grows (names ++ [name]) after)
    (places : Places (names ++ [name]) after first) :
    Places names after (names.length :: first) := by
  have upper := grown.length_le
  rw [List.length_append, List.length_singleton] at upper
  obtain ⟨count, counted⟩ := Nat.exists_eq_add_of_le upper
  have whole : List.range' names.length (after.length - names.length) =
      names.length ::
        List.range' (names ++ [name]).length (after.length - (names ++ [name]).length) := by
    have more : after.length - names.length = count + 1 := by omega
    have fewer : after.length - (names ++ [name]).length = count := by
      rw [List.length_append, List.length_singleton]
      omega
    rw [more, fewer, List.range'_succ, List.length_append, List.length_singleton]
  unfold Places
  rw [whole]
  exact places.cons_cons _

end Places

theorem Step.definitionsOfAll_append (first second : List Step) :
    definitionsOfAll (first ++ second) = definitionsOfAll first ++ definitionsOfAll second := by
  induction first with
  | nil => rfl
  | cons step rest ih => simp only [List.cons_append, definitionsOfAll, ih, List.append_assoc]

section Compiled

variable {names : List String}

mutual

/-- **The handles inside a compiled invocation are places of the names that it declares.** -/
theorem Invocation.compile_handles (distinct : names.Nodup) : (invocation : Invocation) →
    ∀ (scopes : List Scope) (declared after : List String) (step : Step),
      invocation.declare declared = .ok after → after <+: names →
      invocation.compile names scopes = .ok step →
      Places declared after (handlesOf step.definitions)
  | .mk validator params tag => by
      have chainHandles := Param.compileChain_handles distinct params
      have fieldHandles := Param.compileFields_handles distinct params
      intro scopes declared after step declares known compiles
      cases Invocation.compiles_of_ok compiles with
      | check checks =>
          have check := checks.spec.1
          cases step <;> first | exact .none _ _ | cases check
      | object _ steps =>
          have fields := fieldHandles _ _ _ _ _ _ _ _ declares known steps
          unfold Places at fields
          rw [handlesOf, List.map_append] at fields
          exact (List.sublist_append_right _ _).trans fields
      | array _ steps => exact chainHandles _ _ _ _ declares known steps
      | @definition param rest name handle chain named handled _ _ steps =>
          rw [Invocation.declare, if_pos rfl] at declares
          obtain ⟨_, named', inner⟩ := bind_eq_ok.mp declares
          cases named.symm.trans named'
          split at inner
          · cases inner
          · have grown := Param.declareAll_grows (param :: rest) _ _ inner
            have place := Param.handle_eq_length distinct (grown.grows.trans known) handled
            subst place
            exact .cons name grown
              (chainHandles _ _ _ _ inner known ((Param.compileChain_of_named named).trans steps))
      | reference _ _ => exact .none _ _

theorem Param.compileChain_handles (distinct : names.Nodup) : (params : List Param) →
    ∀ (scopes : List Scope) (declared after : List String) (chain : List Step),
      Param.declareAll declared params = .ok after → after <+: names →
      Param.compileChain names scopes params = .ok chain →
      Places declared after (handlesOf (Step.definitionsOfAll chain))
  | [] => by
      intro scopes declared after chain declares known compiles
      cases compiles
      exact .none _ _
  | param :: rest => by
      intro scopes declared after chain declares known compiles
      rw [Param.declareAll] at declares
      obtain ⟨middle, declaresFirst, declaresRest⟩ := bind_eq_ok.mp declares
      rw [Param.compileChain] at compiles
      obtain ⟨steps, first, inner⟩ := bind_eq_ok.mp compiles
      obtain ⟨others, second, same⟩ := bind_eq_ok.mp inner
      cases same
      have firstGrown := Param.declare_grows param _ _ declaresFirst
      have restGrown := Param.declareAll_grows rest _ _ declaresRest
      rw [Step.definitionsOfAll_append, handlesOf, List.map_append]
      exact .append firstGrown restGrown
        (Param.compileOne_handles distinct param _ _ _ _ declaresFirst
          (restGrown.grows.trans known) first)
        (Param.compileChain_handles distinct rest _ _ _ _ declaresRest known second)

theorem Param.compileOne_handles (distinct : names.Nodup) : (param : Param) →
    ∀ (scopes : List Scope) (declared after : List String) (steps : List Step),
      Param.declare declared param = .ok after → after <+: names →
      Param.compileOne names scopes param = .ok steps →
      Places declared after (handlesOf (Step.definitionsOfAll steps))
  | .validator invocation => by
      intro scopes declared after steps declares known compiles
      rw [Param.compileOne] at compiles
      obtain ⟨step, inner, same⟩ := bind_eq_ok.mp compiles
      cases same
      rw [Step.definitionsOfAll, Step.definitionsOfAll, List.append_nil]
      exact Invocation.compile_handles distinct invocation _ _ _ _ declares known inner
  | .token _ | .text _ | .injection _ | .comparison _ => by
      intro scopes declared after steps declares known compiles
      cases compiles
      exact .none _ _

theorem Param.compileFields_handles (distinct : names.Nodup) : (params : List Param) →
    ∀ (scopes : List Scope) (fieldNames referenced : List String) (started : Nat)
      (declared after : List String) (first : List Step) (fields : List Field),
      Param.declareAll declared params = .ok after → after <+: names →
      Param.compileFields names scopes fieldNames referenced started params = .ok (first, fields) →
      Places declared after
        (handlesOf (Step.definitionsOfAll first ++ Field.definitionsOfAll fields))
  | [] => by
      intro scopes fieldNames referenced started declared after first fields declares known compiles
      cases compiles
      exact .none _ _
  | param :: rest => by
      intro scopes fieldNames referenced started declared after first fields declares known compiles
      rw [Param.declareAll] at declares
      obtain ⟨middle, declaresFirst, declaresRest⟩ := bind_eq_ok.mp declares
      have firstGrown := Param.declare_grows param _ _ declaresFirst
      have restGrown := Param.declareAll_grows rest _ _ declaresRest
      rw [Param.compileFields] at compiles
      split at compiles
      · obtain ⟨⟨steps, others⟩, inner, same⟩ := bind_eq_ok.mp compiles
        cases same
        have inside :=
          Param.compileFields_handles distinct rest _ _ _ _ _ _ _ _ declaresRest known inner
        exact .append firstGrown restGrown (.none _ _) inside
      · obtain ⟨one, first, inner⟩ := bind_eq_ok.mp compiles
        obtain ⟨⟨steps, others⟩, second, same⟩ := bind_eq_ok.mp inner
        cases same
        rw [Step.definitionsOfAll_append, List.append_assoc, handlesOf, List.map_append]
        exact .append firstGrown restGrown
          (Param.compileOne_handles distinct param _ _ _ _ declaresFirst
            (restGrown.grows.trans known) first)
          (Param.compileFields_handles distinct rest _ _ _ _ _ _ _ _ declaresRest known second)

end

end Compiled

/-! ### Templates -/

namespace Template

variable {forest : List Param} {names : List String} {template : Template}

/-- The handles that are defined in a template are places of names, in their order. -/
theorem Compiles.handles_places (compiled : Compiles forest names template) :
    Places [] names (handlesOf (Step.definitionsOfAll template.root)) := by
  have grown := Param.declareAll_grows forest _ _ compiled.declares
  have declares := compiled.declares
  rw [← List.takeWhile_append_dropWhile (p := fun param => !Param.isSuffix param) (l := forest),
    Param.declareAll_append] at declares
  obtain ⟨middle, chain, trailing⟩ := bind_eq_ok.mp declares
  have chainGrown := Param.declareAll_grows _ _ _ chain
  have restGrown := Param.declareAll_grows _ _ _ trailing
  have places := Param.compileChain_handles (grown.distinct List.nodup_nil) _ _ _ _ _ chain
    restGrown.grows compiled.root
  rw [← List.append_nil (handlesOf _)]
  exact .append chainGrown restGrown places (.none _ _)

/-- **No handle is defined twice in a template.** -/
theorem Compiles.handles_nodup (compiled : Compiles forest names template) :
    (handlesOf (Step.definitionsOfAll template.root)).Nodup :=
  List.Nodup.sublist compiled.handles_places List.nodup_range'

/-- The body of a handle is the chain of its first definition. -/
theorem Compiles.find?_of_body (compiled : Compiles forest names template) {handle : Nat}
    {body : List Step} (found : template.bodies[handle]? = some body) :
    ∃ definition, (Step.definitionsOfAll template.root).find?
      (fun definition => definition.1 = handle) = some definition ∧ definition.2 = body := by
  obtain ⟨⟨name, place⟩, here, makes⟩ := (mapM_eq_ok compiled.bodies).2 handle body found
  rw [List.getElem?_zipIdx, Nat.zero_add] at here
  obtain ⟨_, -, same⟩ := Option.map_eq_some_iff.mp here
  cases same
  dsimp only at makes
  unfold bodyOf at makes
  split at makes
  · rename_i definition first
    cases makes
    exact ⟨definition, first, rfl⟩
  · cases makes

/-- **The body of a handle is the chain of its definition.** -/
theorem Compiles.body_of_definition (compiled : Compiles forest names template) {handle : Nat}
    {chain : List Step} (defined : (handle, chain) ∈ Step.definitionsOfAll template.root) :
    template.bodies[handle]? = some chain := by
  have member : handle ∈ handlesOf (Step.definitionsOfAll template.root) :=
    List.mem_map_of_mem defined
  have valid : handle < template.bodies.length := by
    rw [(mapM_eq_ok compiled.bodies).1, List.length_zipIdx]
    simpa using compiled.handles_places.subset member
  obtain ⟨definition, first, same⟩ :=
    compiled.find?_of_body (List.getElem?_eq_getElem valid)
  have unique : definition = (handle, chain) := by
    have here := List.mem_of_find?_eq_some first
    have handled : definition.1 = handle := by simpa using List.find?_some first
    exact List.inj_on_of_nodup_map compiled.handles_nodup here defined handled
  rw [List.getElem?_eq_getElem valid, ← same, unique]

end Template

end Schemata
