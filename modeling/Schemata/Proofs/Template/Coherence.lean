/-
**Compiled templates are coherent.**

A template repeats the chain of each definition as the body of its handle, and refers to fields by
name. What the compiler checks makes both safe.

* `Template.Coherent` says that bodies are the chains of their definitions, and that every
  comparison with a field has scopes that accept the dependency;
* `Template.ofText_coherent`: every template of a text is coherent.
-/

import Schemata.Proofs.Compilation.Acceptance
import Schemata.Proofs.Compilation.Handles
import Schemata.Proofs.Template.Address

namespace Schemata

/-- **The bodies of a template are the chains of its definitions, and its dependencies are
accepted.** -/
structure Template.Coherent (template : Template) : Prop where
  addressed : ∀ handle body, template.bodies[handle]? = some body →
    ∃ address, Step.bodyAddress template.root handle = some address ∧
      Step.chainAt template.root address = some body
  defined : ∀ address index handle chain,
    Step.stepAt template.root address index = some (.define handle chain) →
    template.bodies[handle]? = some chain
  accepted : ∀ address index step name, Step.stepAt template.root address index = some step →
    step.dependency? = some name →
    Scope.resolve name (Step.scopesAt template.root address) = .ok ()

/-! ### Definitions -/

namespace Step

variable {root : List Step}

theorem definitions_subset_of_mem {chain : List Step} {step : Step} (member : step ∈ chain) :
    step.definitions ⊆ definitionsOfAll chain := by
  induction chain with
  | nil => cases member
  | cons first rest ih =>
      rw [definitionsOfAll]
      rcases List.mem_cons.mp member with rfl | member
      · exact List.subset_append_left _ _
      · exact List.subset_append_of_subset_right _ (ih member)

theorem definitions_subset_of_field {fields : List Field} {field : Field}
    (member : field ∈ fields) :
    definitionsOfAll field.chain ⊆ Field.definitionsOfAll fields := by
  induction fields with
  | nil => cases member
  | cons first rest ih =>
      rw [Field.definitionsOfAll]
      rcases List.mem_cons.mp member with rfl | member
      · cases field
        exact List.subset_append_left _ _
      · exact List.subset_append_of_subset_right _ (ih member)

/-- The definitions inside a chain of a step are inside the step. -/
theorem definitions_subset_of_chainInside {step : Step} {position : Nat} {chain : List Step}
    (inside : step.chainInside position = some chain) :
    definitionsOfAll chain ⊆ step.definitions := by
  unfold chainInside at inside
  split at inside
  · obtain ⟨field, found, rfl⟩ := Option.map_eq_some_iff.mp inside
    exact definitions_subset_of_field (List.mem_of_getElem? found)
  · split at inside
    · cases inside
      exact List.Subset.refl _
    · cases inside
  · split at inside
    · cases inside
      exact List.subset_cons_self _ _
    · cases inside
  · cases inside

/-- **The definitions inside the chain at an address are inside the whole schema.** -/
theorem definitions_subset_of_chainAt {address : Address} : ∀ {chain : List Step},
    chainAt root address = some chain → definitionsOfAll chain ⊆ definitionsOfAll root := by
  induction address with
  | nil =>
      intro chain here
      cases here
      exact List.Subset.refl _
  | cons turn outer ih =>
      intro chain here
      obtain ⟨around, outerHere, inner⟩ := Option.bind_eq_some_iff.mp here
      obtain ⟨step, found, inside⟩ := Option.bind_eq_some_iff.mp inner
      exact List.Subset.trans (definitions_subset_of_chainInside inside)
        (List.Subset.trans (definitions_subset_of_mem (List.mem_of_getElem? found)) (ih outerHere))

/-- The first definition of a handle has its chain at the address of the handle. -/
theorem bodyAddress_of_find? {handle : Nat} {definition : Nat × List Step}
    (first : (definitionsOfAll root).find? (fun definition => definition.1 = handle) =
      some definition) :
    ∃ address, bodyAddress root handle = some address ∧
      chainAt root address = some definition.2 := by
  have chains :=
    definitionsOfChainAt_chains root [] 0 root (show chainAt root [] = some root from rfl) rfl
  have found := congrArg (List.find? fun entry => entry.1 = handle) chains
  rw [List.find?_map, List.find?_map] at found
  change Option.map _ ((definitionsOfChainAt [] 0 root).find? fun entry => entry.1 = handle) =
    Option.map _ ((definitionsOfAll root).find? fun definition => definition.1 = handle) at found
  rw [first] at found
  obtain ⟨⟨other, address⟩, here, same⟩ := Option.map_eq_some_iff.mp found
  refine ⟨address, ?_, congrArg Prod.snd same⟩
  rw [bodyAddress, here]
  rfl

/-! ### Dependencies -/

theorem accepted_of_mem {scopes : List Scope} {chain : List Step} {step : Step}
    (accepted : ChainAccepted scopes chain) (member : step ∈ chain) : step.Accepted scopes := by
  induction chain with
  | nil => cases member
  | cons first rest ih =>
      rcases List.mem_cons.mp member with rfl | member
      · exact accepted.1
      · exact ih accepted.2 member

theorem chainAccepted_of_field {scopes : List Scope} {names : List String} {fields : List Field} :
    ∀ {start position : Nat} {field : Field}, Field.AllAccepted scopes names start fields →
      fields[position]? = some field →
      ChainAccepted (⟨names, start + position⟩ :: scopes) field.chain := by
  induction fields with
  | nil =>
      intro _ _ _ _ found
      cases found
  | cons first rest ih =>
      intro start position field accepted found
      obtain ⟨name, chain, publishes⟩ := first
      cases position with
      | zero =>
          cases found
          exact accepted.1
      | succ position =>
          have further := ih accepted.2 found
          rw [Nat.add_right_comm] at further
          exact further

/-- **The scopes around an address accept the dependencies of the chain there.** -/
theorem chainAccepted_at (accepted : ChainAccepted [] root) {address : Address} :
    ∀ {chain : List Step}, chainAt root address = some chain →
      ChainAccepted (scopesAt root address) chain := by
  induction address with
  | nil =>
      intro chain here
      cases here
      exact accepted
  | cons turn outer ih =>
      intro chain here
      obtain ⟨index, position⟩ := turn
      obtain ⟨around, outerHere, inner⟩ := Option.bind_eq_some_iff.mp here
      obtain ⟨step, found, inside⟩ := Option.bind_eq_some_iff.mp inner
      have stepAccepted := accepted_of_mem (ih outerHere) (List.mem_of_getElem? found)
      have stepHere := stepAt_eq_some.mpr ⟨around, outerHere, found⟩
      rw [scopesAt, stepHere]
      cases step with
      | object fields tag =>
          obtain ⟨field, fieldFound, rfl⟩ := Option.map_eq_some_iff.mp inside
          have fieldAccepted := chainAccepted_of_field stepAccepted fieldFound
          rw [Nat.zero_add] at fieldAccepted
          exact fieldAccepted
      | array inner tag | define handle inner =>
          obtain ⟨-, same⟩ := Option.ite_none_right_eq_some.mp inside
          cases same
          exact stepAccepted
      | _ => cases inside

end Step

/-! ### Templates -/

namespace Template

theorem ofForest_coherent {forest : List Param} {template : Template}
    (compiles : ofForest forest = .ok template) : template.Coherent := by
  obtain ⟨names, compiled⟩ := ofForest_eq_ok_iff.mp compiles
  have accepted := Param.compileChain_accepted _ _ _ compiled.root
  refine ⟨fun handle body found => ?_, fun address index handle chain here => ?_,
    fun address index step name here depends => ?_⟩
  · obtain ⟨definition, first, rfl⟩ := compiled.find?_of_body found
    exact Step.bodyAddress_of_find? first
  · obtain ⟨around, aroundHere, found⟩ := Step.stepAt_eq_some.mp here
    refine compiled.body_of_definition (Step.definitions_subset_of_chainAt aroundHere
      (Step.definitions_subset_of_mem (List.mem_of_getElem? found) ?_))
    exact List.mem_cons_self
  · obtain ⟨around, aroundHere, found⟩ := Step.stepAt_eq_some.mp here
    have stepAccepted := Step.accepted_of_mem (Step.chainAccepted_at accepted aroundHere)
      (List.mem_of_getElem? found)
    unfold Step.dependency? at depends
    split at depends
    · cases depends
      exact stepAccepted
    · cases depends
      exact stepAccepted
    · cases depends

/-- **Every template of a text is coherent.** -/
theorem ofText_coherent {text : String} {template : Template}
    (compiles : ofText text = .ok template) : template.Coherent := by
  obtain ⟨forest, -, compiles⟩ := bind_eq_ok.mp compiles
  exact ofForest_coherent compiles

end Template

end Schemata
