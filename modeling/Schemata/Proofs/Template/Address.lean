/-
**Places in a template.**

An address leads to a chain from that of the whole schema: into a field of an object, the items of
an array or the chain of a definition. It lists its turns from the last one to the first.

* `Step.chainAt` is the chain at an address, and `Step.scopesAt` lists the objects around it;
* `Step.resolve` finds the field that a comparison at an address depends on, and
  `Step.exists_resolve_of_ok` says that it finds one where the compiler accepts the dependency;
* `Address.LiesBehind` says that an address leads into a field behind a given one of an object;
* `Step.definitionsAt` lists the definitions inside a step with the addresses of their chains.
-/

import Schemata.Compilation.Naming
import Schemata.Template.Step

namespace Schemata

/-! ### Addresses -/

/-- Turns into chains, the last one first: the index of a step in its chain, and the position of a
field in its object, or zero. -/
abbrev Address := List (Nat × Nat)

/-- A field of an object: the chain and the index of the object, and the position of the field. -/
structure Declaration where
  outer : Address
  index : Nat
  position : Nat
deriving DecidableEq, Repr

/-- **An address leads into a field behind a given one**, of the same object. -/
def Address.LiesBehind (address : Address) (declaration : Declaration) : Prop :=
  ∃ position, declaration.position < position ∧
    (declaration.index, position) :: declaration.outer <:+ address

namespace Step

/-- The chain inside a step at a position. -/
def chainInside (position : Nat) : Step → Option (List Step)
  | .object fields _ => fields[position]?.map Field.chain
  | .array chain _ | .define _ chain => if position = 0 then some chain else none
  | _ => none

variable (root : List Step)

/-- **The chain at an address.** -/
def chainAt : Address → Option (List Step)
  | [] => some root
  | (index, position) :: outer => do
    let chain ← chainAt outer
    let step ← chain[index]?
    step.chainInside position

/-- The step of an index in the chain at an address. -/
def stepAt (address : Address) (index : Nat) : Option Step := do
  let chain ← chainAt root address
  chain[index]?

/-- **The objects around an address**, the innermost one first. -/
def scopesAt : Address → List Scope
  | [] => []
  | (index, position) :: outer =>
    match stepAt root outer index with
    | some (.object fields _) => ⟨fields.map Field.name, position⟩ :: scopesAt outer
    | _ => scopesAt outer

/-- **The field that a comparison at an address depends on.** The innermost object that declares a
name decides. -/
def resolve (name : String) : Address → Option Declaration
  | [] => none
  | (index, position) :: outer =>
    match stepAt root outer index with
    | some (.object fields _) =>
      match (fields.map Field.name).findIdx? (· = name) with
      | some place => if place < position then some ⟨outer, index, place⟩ else none
      | none => resolve name outer
    | _ => resolve name outer

variable {root}

/-- **Where the compiler accepts a dependency there is a field for it.** -/
theorem exists_resolve_of_ok {name : String} {address : Address}
    (accepted : Scope.resolve name (scopesAt root address) = .ok ()) :
    ∃ declaration, resolve root name address = some declaration := by
  induction address with
  | nil => cases accepted
  | cons turn outer ih =>
      obtain ⟨index, position⟩ := turn
      rw [scopesAt] at accepted
      rw [resolve]
      split at accepted
      · rw [Scope.resolve] at accepted
        split at accepted
        · split at accepted
          · rename_i found before
            simp only [found]
            exact ⟨_, if_pos before⟩
          · cases accepted
        · rename_i missing
          simp only [missing]
          exact ih accepted
      · exact ih accepted

/-- The field that a comparison depends on has its name, and the address lies behind it. -/
theorem resolve_spec {name : String} {address : Address} {declaration : Declaration}
    (resolves : resolve root name address = some declaration) :
    address.LiesBehind declaration ∧ ∃ fields tag field,
      stepAt root declaration.outer declaration.index = some (.object fields tag) ∧
      fields[declaration.position]? = some field ∧ field.name = name := by
  induction address with
  | nil => cases resolves
  | cons turn outer ih =>
      obtain ⟨index, position⟩ := turn
      have further : resolve root name outer = some declaration →
          Address.LiesBehind ((index, position) :: outer) declaration ∧ ∃ fields tag field,
            stepAt root declaration.outer declaration.index = some (.object fields tag) ∧
            fields[declaration.position]? = some field ∧ field.name = name := by
        intro resolves
        obtain ⟨⟨behind, less, suffix⟩, rest⟩ := ih resolves
        exact ⟨⟨behind, less, suffix.trans (List.suffix_cons _ _)⟩, rest⟩
      rw [resolve] at resolves
      split at resolves
      · rename_i fields tag object
        split at resolves
        · rename_i place found
          split at resolves
          · rename_i before
            cases resolves
            obtain ⟨valid, same, -⟩ := List.findIdx?_eq_some_iff_getElem.mp found
            rw [List.length_map] at valid
            refine ⟨⟨position, before, List.suffix_rfl⟩, fields, tag, fields[place], object,
              List.getElem?_eq_getElem valid, ?_⟩
            simpa using same
          · cases resolves
        · exact further resolves
      · exact further resolves

end Step

/-! ### Definitions -/

mutual

/-- **The definitions inside the step of an index**, each with the address of its chain, in the
order in which `Step.definitions` lists them. -/
def Step.definitionsAt (outer : Address) (index : Nat) : Step → List (Nat × Address)
  | .object fields _ => Field.definitionsOfAllAt outer index 0 fields
  | .array chain _ => Step.definitionsOfChainAt ((index, 0) :: outer) 0 chain
  | .define handle chain =>
    (handle, (index, 0) :: outer) :: Step.definitionsOfChainAt ((index, 0) :: outer) 0 chain
  | _ => []

/-- The definitions inside the chain at an address, from the step of an index on. -/
def Step.definitionsOfChainAt (address : Address) (index : Nat) : List Step → List (Nat × Address)
  | [] => []
  | step :: rest =>
    step.definitionsAt address index ++ Step.definitionsOfChainAt address (index + 1) rest

/-- The definitions inside the fields of an object, from the field of a position on. -/
def Field.definitionsOfAllAt (outer : Address) (index position : Nat) :
    List Field → List (Nat × Address)
  | [] => []
  | .mk _ chain _ :: rest =>
    Step.definitionsOfChainAt ((index, position) :: outer) 0 chain ++
      Field.definitionsOfAllAt outer index (position + 1) rest

end

namespace Step

variable {root : List Step}

/-- **The address of the chain that a handle is first defined as.** -/
def bodyAddress (root : List Step) (handle : Nat) : Option Address :=
  ((definitionsOfChainAt [] 0 root).find? fun definition => definition.1 = handle).map Prod.snd

theorem stepAt_eq_some {address : Address} {index : Nat} {step : Step} :
    stepAt root address index = some step ↔
      ∃ chain, chainAt root address = some chain ∧ chain[index]? = some step :=
  Option.bind_eq_some_iff

theorem chainAt_cons {index position : Nat} {outer : Address} {step : Step}
    (here : stepAt root outer index = some step) :
    chainAt root ((index, position) :: outer) = step.chainInside position := by
  obtain ⟨chain, chainHere, found⟩ := stepAt_eq_some.mp here
  simp [chainAt, chainHere, found]

mutual

/-- **The chains at the addresses of definitions are those of the definitions.** -/
theorem definitionsAt_chains : (step : Step) → ∀ (outer : Address) (index : Nat),
    stepAt root outer index = some step →
    (step.definitionsAt outer index).map (fun found => (found.1, chainAt root found.2)) =
      step.definitions.map (fun found => (found.1, some found.2))
  | .object fields tag => by
      intro outer index here
      exact Field.definitionsOfAllAt_chains fields outer index 0 fields tag here rfl
  | .array chain tag => by
      intro outer index here
      exact definitionsOfChainAt_chains chain _ 0 chain (chainAt_cons here) rfl
  | .define handle chain => by
      intro outer index here
      have inside : chainAt root ((index, 0) :: outer) = _ := chainAt_cons here
      have rest := definitionsOfChainAt_chains chain _ 0 chain inside rfl
      simp only [definitionsAt, definitions, List.map_cons, rest, inside]
      rfl
  | .primitive _ _ | .equality _ _ _ | .membership _ _ | .matching _ _ _ | .comparison _ _ _
  | .lengthComparison _ _ _ | .call _ => fun _ _ _ => rfl

theorem definitionsOfChainAt_chains : (chain : List Step) →
    ∀ (address : Address) (index : Nat) (whole : List Step), chainAt root address = some whole →
    whole.drop index = chain →
    (definitionsOfChainAt address index chain).map (fun found => (found.1, chainAt root found.2)) =
      (definitionsOfAll chain).map (fun found => (found.1, some found.2))
  | [] => fun _ _ _ _ _ => rfl
  | step :: rest => by
      intro address index whole here dropped
      have found : whole[index]? = some step := by
        rw [← List.head?_drop, dropped, List.head?_cons]
      have others : whole.drop (index + 1) = rest := by
        rw [← List.tail_drop, dropped, List.tail_cons]
      rw [definitionsOfChainAt, definitionsOfAll, List.map_append, List.map_append,
        definitionsAt_chains step address index (stepAt_eq_some.mpr ⟨whole, here, found⟩),
        definitionsOfChainAt_chains rest address (index + 1) whole here others]

theorem Field.definitionsOfAllAt_chains : (fields : List Field) →
    ∀ (outer : Address) (index position : Nat) (whole : List Field) (tag : Option ErrorTag),
    stepAt root outer index = some (.object whole tag) → whole.drop position = fields →
    (Field.definitionsOfAllAt outer index position fields).map
        (fun found => (found.1, chainAt root found.2)) =
      (Field.definitionsOfAll fields).map (fun found => (found.1, some found.2))
  | [] => fun _ _ _ _ _ _ _ => rfl
  | .mk name chain publishes :: rest => by
      intro outer index position whole tag here dropped
      have found : whole[position]? = some (.mk name chain publishes) := by
        rw [← List.head?_drop, dropped, List.head?_cons]
      have others : whole.drop (position + 1) = rest := by
        rw [← List.tail_drop, dropped, List.tail_cons]
      have inside : chainAt root ((index, position) :: outer) = some chain := by
        rw [chainAt_cons here, chainInside, found]
        rfl
      rw [Field.definitionsOfAllAt, Field.definitionsOfAll, List.map_append, List.map_append,
        definitionsOfChainAt_chains chain _ 0 chain inside rfl,
        Field.definitionsOfAllAt_chains rest outer index (position + 1) whole tag here others]
      rfl

end

end Step

end Schemata
