/-
**What holds at every step of a template.**

* `Step.Everywhere` says that a step and all steps inside it are so, and `Step.ChainEverywhere` says
  it of a chain;
* `Template.Coherent.body_everywhere`: what holds everywhere in the chain of a schema holds
  everywhere in the bodies of its named schemas.
-/

import Schemata.Proofs.Template.Coherence

namespace Schemata

mutual

/-- **A step and all steps inside it are so.** -/
def Step.Everywhere (holds : Step → Prop) : Step → Prop
  | .object fields tag => holds (.object fields tag) ∧ Field.AllEverywhere holds fields
  | .array chain tag => holds (.array chain tag) ∧ Step.ChainEverywhere holds chain
  | .define handle chain => holds (.define handle chain) ∧ Step.ChainEverywhere holds chain
  | step => holds step

/-- All steps of a chain and inside it are so. -/
def Step.ChainEverywhere (holds : Step → Prop) : List Step → Prop
  | [] => True
  | step :: rest => step.Everywhere holds ∧ Step.ChainEverywhere holds rest

/-- All steps inside some fields are so. -/
def Field.AllEverywhere (holds : Step → Prop) : List Field → Prop
  | [] => True
  | .mk _ chain _ :: rest => Step.ChainEverywhere holds chain ∧ Field.AllEverywhere holds rest

end

section Everywhere

variable {holds other : Step → Prop} {root : List Step}

/-- What holds everywhere in a step holds of it. -/
theorem Step.Everywhere.here {step : Step} (everywhere : step.Everywhere holds) : holds step := by
  cases step with
  | object | array | define => exact everywhere.1
  | _ => exact everywhere

theorem Step.chainEverywhere_append {first second : List Step}
    (firstEverywhere : ChainEverywhere holds first)
    (secondEverywhere : ChainEverywhere holds second) :
    ChainEverywhere holds (first ++ second) := by
  induction first with
  | nil => exact secondEverywhere
  | cons step rest ih => exact ⟨firstEverywhere.1, ih firstEverywhere.2⟩

mutual

/-- What holds of all steps holds everywhere. -/
theorem Step.Everywhere.of_forall (all : ∀ step, holds step) : (step : Step) → step.Everywhere holds
  | .object fields _ => ⟨all _, Field.everywhere_of_forall all fields⟩
  | .array chain _ | .define _ chain => ⟨all _, Step.chainEverywhere_of_forall all chain⟩
  | .primitive _ _ | .equality _ _ _ | .membership _ _ | .matching _ _ _ | .comparison _ _ _
  | .lengthComparison _ _ _ | .call _ => all _

theorem Step.chainEverywhere_of_forall (all : ∀ step, holds step) :
    (chain : List Step) → Step.ChainEverywhere holds chain
  | [] => trivial
  | step :: rest => ⟨Step.Everywhere.of_forall all step, Step.chainEverywhere_of_forall all rest⟩

theorem Field.everywhere_of_forall (all : ∀ step, holds step) :
    (fields : List Field) → Field.AllEverywhere holds fields
  | [] => trivial
  | .mk _ chain _ :: rest =>
      ⟨Step.chainEverywhere_of_forall all chain, Field.everywhere_of_forall all rest⟩

end

mutual

/-- What follows from what holds everywhere holds everywhere. -/
theorem Step.Everywhere.imp (implies : ∀ step, holds step → other step) :
    (step : Step) → step.Everywhere holds → step.Everywhere other
  | .object fields _, everywhere =>
      ⟨implies _ everywhere.1, Field.everywhere_imp implies fields everywhere.2⟩
  | .array chain _, everywhere | .define _ chain, everywhere =>
      ⟨implies _ everywhere.1, Step.chainEverywhere_imp implies chain everywhere.2⟩
  | .primitive _ _, everywhere | .equality _ _ _, everywhere | .membership _ _, everywhere
  | .matching _ _ _, everywhere | .comparison _ _ _, everywhere
  | .lengthComparison _ _ _, everywhere
  | .call _, everywhere => implies _ everywhere

theorem Step.chainEverywhere_imp (implies : ∀ step, holds step → other step) :
    (chain : List Step) → Step.ChainEverywhere holds chain → Step.ChainEverywhere other chain
  | [], _ => trivial
  | step :: rest, everywhere =>
      ⟨Step.Everywhere.imp implies step everywhere.1,
        Step.chainEverywhere_imp implies rest everywhere.2⟩

theorem Field.everywhere_imp (implies : ∀ step, holds step → other step) :
    (fields : List Field) → Field.AllEverywhere holds fields → Field.AllEverywhere other fields
  | [], _ => trivial
  | .mk _ chain _ :: rest, everywhere =>
      ⟨Step.chainEverywhere_imp implies chain everywhere.1,
        Field.everywhere_imp implies rest everywhere.2⟩

end

mutual

/-- Two properties that hold everywhere hold together everywhere. -/
theorem Step.Everywhere.and : (step : Step) → step.Everywhere holds → step.Everywhere other →
    step.Everywhere fun step => holds step ∧ other step
  | .object fields _, first, second =>
      ⟨⟨first.1, second.1⟩, Field.everywhere_and fields first.2 second.2⟩
  | .array chain _, first, second | .define _ chain, first, second =>
      ⟨⟨first.1, second.1⟩, Step.chainEverywhere_and chain first.2 second.2⟩
  | .primitive _ _, first, second | .equality _ _ _, first, second | .membership _ _, first, second
  | .matching _ _ _, first, second | .comparison _ _ _, first, second
  | .lengthComparison _ _ _, first, second | .call _, first, second => ⟨first, second⟩

theorem Step.chainEverywhere_and : (chain : List Step) → Step.ChainEverywhere holds chain →
    Step.ChainEverywhere other chain →
    Step.ChainEverywhere (fun step => holds step ∧ other step) chain
  | [], _, _ => trivial
  | step :: rest, first, second =>
      ⟨Step.Everywhere.and step first.1 second.1, Step.chainEverywhere_and rest first.2 second.2⟩

theorem Field.everywhere_and : (fields : List Field) → Field.AllEverywhere holds fields →
    Field.AllEverywhere other fields →
    Field.AllEverywhere (fun step => holds step ∧ other step) fields
  | [], _, _ => trivial
  | .mk _ chain _ :: rest, first, second =>
      ⟨Step.chainEverywhere_and chain first.1 second.1, Field.everywhere_and rest first.2 second.2⟩

end

theorem Step.everywhere_of_mem {chain : List Step} {step : Step}
    (everywhere : Step.ChainEverywhere holds chain) (member : step ∈ chain) :
    step.Everywhere holds := by
  induction chain with
  | nil => cases member
  | cons first rest ih =>
      rcases List.mem_cons.mp member with rfl | member
      · exact everywhere.1
      · exact ih everywhere.2 member

theorem Field.everywhere_of_mem {fields : List Field} {field : Field}
    (everywhere : Field.AllEverywhere holds fields) (member : field ∈ fields) :
    Step.ChainEverywhere holds field.chain := by
  induction fields with
  | nil => cases member
  | cons first rest ih =>
      obtain ⟨name, chain, publishes⟩ := first
      rcases List.mem_cons.mp member with rfl | member
      · exact everywhere.1
      · exact ih everywhere.2 member

theorem Step.everywhere_chainInside {step : Step} {position : Nat} {chain : List Step}
    (everywhere : step.Everywhere holds) (inside : step.chainInside position = some chain) :
    Step.ChainEverywhere holds chain := by
  cases step with
  | object fields tag =>
      obtain ⟨field, found, rfl⟩ := Option.map_eq_some_iff.mp inside
      exact Field.everywhere_of_mem everywhere.2 (List.mem_of_getElem? found)
  | array inner tag | define handle inner =>
      obtain ⟨-, same⟩ := Option.ite_none_right_eq_some.mp inside
      cases same
      exact everywhere.2
  | _ => cases inside

/-- **What holds everywhere holds in the chain at every address.** -/
theorem Step.everywhere_chainAt (everywhere : Step.ChainEverywhere holds root) {address : Address} :
    ∀ {chain : List Step}, Step.chainAt root address = some chain →
      Step.ChainEverywhere holds chain := by
  induction address with
  | nil =>
      intro chain here
      cases here
      exact everywhere
  | cons turn outer ih =>
      intro chain here
      obtain ⟨around, outerHere, inner⟩ := Option.bind_eq_some_iff.mp here
      obtain ⟨step, found, inside⟩ := Option.bind_eq_some_iff.mp inner
      exact everywhere_chainInside
        (everywhere_of_mem (ih outerHere) (List.mem_of_getElem? found)) inside

/-- What holds everywhere holds of the step at every place. -/
theorem Step.everywhere_stepAt (everywhere : Step.ChainEverywhere holds root) {address : Address}
    {index : Nat} {step : Step} (here : Step.stepAt root address index = some step) :
    step.Everywhere holds := by
  obtain ⟨chain, chainHere, found⟩ := Step.stepAt_eq_some.mp here
  exact everywhere_of_mem (everywhere_chainAt everywhere chainHere) (List.mem_of_getElem? found)

/-- What holds everywhere inside an object holds in the chain at every address that leads into
it. -/
theorem Step.everywhere_inside {outer : Address} {index position : Nat} {fields : List Field}
    {tag : Option ErrorTag} (object : Step.stepAt root outer index = some (.object fields tag))
    (everywhere : Field.AllEverywhere holds fields) {address : Address} : ∀ {chain : List Step},
    (index, position) :: outer <:+ address → Step.chainAt root address = some chain →
      Step.ChainEverywhere holds chain := by
  induction address with
  | nil =>
      intro chain suffix
      cases List.suffix_nil.mp suffix
  | cons turn rest ih =>
      intro chain suffix here
      rcases List.suffix_cons_iff.mp suffix with same | suffix
      · cases same
        rw [Step.chainAt_cons object] at here
        obtain ⟨field, found, rfl⟩ := Option.map_eq_some_iff.mp here
        exact Field.everywhere_of_mem everywhere (List.mem_of_getElem? found)
      · obtain ⟨around, aroundHere, inner⟩ := Option.bind_eq_some_iff.mp here
        obtain ⟨step, found, inside⟩ := Option.bind_eq_some_iff.mp inner
        exact everywhere_chainInside
          (everywhere_of_mem (ih suffix aroundHere) (List.mem_of_getElem? found)) inside

/-- **What holds everywhere in a schema holds in the bodies of its named schemas.** -/
theorem Template.Coherent.body_everywhere {template : Template} (coherent : template.Coherent)
    (everywhere : Step.ChainEverywhere holds template.root) {handle : Nat} {body : List Step}
    (found : template.bodies[handle]? = some body) : Step.ChainEverywhere holds body := by
  obtain ⟨address, -, here⟩ := coherent.addressed handle body found
  exact Step.everywhere_chainAt everywhere here

end Everywhere

end Schemata
