/-
**What a comparison reads is what its object answers.**

All fields of a name publish to one place, those of every item and every nested object. Where no
schema is referred to and one object alone declares the name, only the instances of this object
publish under it; and between a field of an instance and a later moment inside it no other instance
is begun.

* `Step.validate_ends_of_free`: without references every run ends;
* `Spot.Direct` spots have an address that is as long as they are, so no instance of an object is
  inside another one;
* `Step.publication_eq_none`: behind a field of an object nothing is published under its name;
* `Template.reads_stored`: so a comparison inside the object reads what the object answers under
  that name.
-/

import Schemata.Proofs.Evaluation.Publication
import Schemata.Proofs.Evaluation.Settling
import Schemata.Proofs.Evaluation.Termination
import Schemata.Proofs.Template.Soundness

namespace Schemata

/-- A step that refers to a named schema. -/
def Step.isReference : Step → Bool
  | .call _ => true
  | _ => false

/-! ### Runs without references -/

section Free

variable {bodies : List (List Step)} {bindings : Bindings}

theorem Validator.validateItems_ends {item : Validator}
    (itemEnds : ∀ value known, (item value).Ends known) (items : List Json) : ∀ position known,
    (item.validateItems position items).Ends known := by
  induction items with
  | nil => exact fun _ _ => Run.pure_ends _
  | cons value rest ih =>
      exact fun position known =>
        Run.Ends.bind (Run.Ends.within (itemEnds _ _)) fun _ _ => (ih _ _).map _

mutual

/-- **A step without references ends**, if its definitions are the bodies of their handles. -/
theorem Step.validate_ends_of_free : (step : Step) →
    step.Everywhere (fun step => step.isReference = false) →
    (∀ definition ∈ step.definitions, bodies[definition.1]? = some definition.2) →
    ∀ value known, (step.validate bindings (Step.invoke bodies bindings) value).Ends known
  | .object fields tag, free, defined => by
      intro value known
      cases value with
      | object members =>
          simp only [Step.validate]
          split
          · exact Run.pure_ends _
          · exact (Field.validateAll_ends_of_free fields free.2 defined _ _).map _
      | _ => exact ErrorTag.fail_ends _ _ _ _ _
  | .array chain tag, free, defined => by
      intro value known
      cases value with
      | array items =>
          exact (Validator.validateItems_ends
            (Step.validateChain_ends_of_free chain free.2 defined) items _ _).map _
      | _ => exact ErrorTag.fail_ends _ _ _ _ _
  | .define handle chain, free, defined => by
      intro value known
      obtain ⟨here, inside⟩ := List.forall_mem_cons.mp defined
      have ends := Step.validateChain_ends_of_free chain free.2 inside value known
      simp only [Step.validate]
      unfold Run.Ends
      rw [Step.invoke, here]
      exact ends
  | .primitive _ _, _, _ | .equality _ _ _, _, _ | .membership _ _, _, _ | .matching _ _ _, _, _
  | .comparison _ _ _, _, _ | .lengthComparison _ _ _, _, _ => Step.check_ends rfl _ _

theorem Step.validateChain_ends_of_free : (chain : List Step) →
    Step.ChainEverywhere (fun step => step.isReference = false) chain →
    (∀ definition ∈ Step.definitionsOfAll chain, bodies[definition.1]? = some definition.2) →
    ∀ value known,
      (Step.validateChain bindings (Step.invoke bodies bindings) chain value).Ends known
  | [], _, _ => fun _ _ => Run.pure_ends _
  | step :: rest, free, defined => by
      intro value known
      obtain ⟨here, others⟩ := List.forall_mem_append.mp defined
      refine Run.Ends.bind (Step.validate_ends_of_free step free.1 here value known)
        fun first _ => ?_
      cases first.result with
      | none => exact Run.pure_ends _
      | some next => exact Step.validateChain_ends_of_free rest free.2 others _ _

theorem Field.validateAll_ends_of_free : (fields : List Field) →
    Field.AllEverywhere (fun step => step.isReference = false) fields →
    (∀ definition ∈ Field.definitionsOfAll fields, bodies[definition.1]? = some definition.2) →
    ∀ members known,
      (Field.validateAll bindings (Step.invoke bodies bindings) fields members).Ends known
  | [], _, _ => fun _ _ => Run.pure_ends _
  | .mk name chain publishes :: rest, free, defined => by
      intro members known
      obtain ⟨here, others⟩ := List.forall_mem_append.mp defined
      refine Run.Ends.bind (Field.validate_ends publishes
        (Step.validateChain_ends_of_free chain free.1 here _ _)) fun _ _ => ?_
      exact (Field.validateAll_ends_of_free rest free.2 others _ _).map _

end

end Free

/-! ### Places without references -/

/-- No turn of a spot refers to a named schema. -/
def Spot.Direct (spot : Spot) : Prop :=
  ∀ frame ∈ spot, ∀ handle, frame.turn ≠ .reference handle

namespace Spot.Direct

variable (root : List Step) {spot outer : Spot} {frame : Frame}

theorem tail (direct : Direct (frame :: spot)) : Direct spot :=
  (List.forall_mem_cons.mp direct).2

theorem address_cons (direct : Direct (frame :: spot)) :
    ∃ position, Spot.address root (frame :: spot) =
      (frame.index, position) :: Spot.address root spot := by
  obtain ⟨index, turn⟩ := frame
  cases turn with
  | field | item | definition => exact ⟨_, rfl⟩
  | reference handle => exact absurd rfl ((List.forall_mem_cons.mp direct).1 handle)

/-- **The address of a direct spot has one turn for each of its turns.** -/
theorem length_address (direct : Direct spot) : (spot.address root).length = spot.length := by
  induction spot with
  | nil => rfl
  | cons frame outer ih =>
      obtain ⟨position, address⟩ := direct.address_cons root
      rw [address, List.length_cons, List.length_cons, ih direct.tail]

theorem address_suffix (direct : Direct spot) (suffix : outer <:+ spot) :
    outer.address root <:+ spot.address root := by
  induction spot with
  | nil =>
      cases List.suffix_nil.mp suffix
      exact List.suffix_rfl
  | cons frame rest ih =>
      rcases List.suffix_cons_iff.mp suffix with rfl | suffix
      · exact List.suffix_rfl
      · obtain ⟨position, address⟩ := direct.address_cons root
        rw [address]
        exact (ih direct.tail suffix).trans (List.suffix_cons _ _)

end Spot.Direct

namespace Step

/-- **A name is declared by one object alone**: by fields of the object at one place, if by any. -/
def DeclaredOnce (root : List Step) (name : String) : Prop :=
  ∀ outer index fields tag outer' index' fields' tag',
    stepAt root outer index = some (.object fields tag) → name ∈ fields.map Field.name →
    stepAt root outer' index' = some (.object fields' tag') → name ∈ fields'.map Field.name →
    outer' = outer ∧ index' = index

theorem eq_of_getElem?_singleton {index : Nat} {only found : Step}
    (here : [only][index]? = some found) :
    index = 0 ∧ found = only := by
  rw [List.getElem?_singleton] at here
  obtain ⟨first, same⟩ := Option.ite_none_right_eq_some.mp here
  exact ⟨first, (Option.some.inj same).symm⟩

/-- The places of an array of objects whose fields have checks only. -/
theorem chainAt_of_flat {fields : List Field} {tag itemTag : Option ErrorTag}
    (flat : ∀ field ∈ fields, ∀ step ∈ field.chain, step.isCheck) (address : Address) :
    ∀ {chain : List Step}, chainAt [.array [.object fields itemTag] tag] address = some chain →
      address = [] ∧ chain = [.array [.object fields itemTag] tag] ∨
        address = [(0, 0)] ∧ chain = [.object fields itemTag] ∨ ∀ step ∈ chain, step.isCheck := by
  induction address with
  | nil => exact fun here => .inl ⟨rfl, (Option.some.inj here).symm⟩
  | cons turn outer ih =>
      intro chain here
      obtain ⟨around, aroundHere, inner⟩ := Option.bind_eq_some_iff.mp here
      obtain ⟨step, found, inside⟩ := Option.bind_eq_some_iff.mp inner
      obtain ⟨index, position⟩ := turn
      rcases ih aroundHere with ⟨rfl, rfl⟩ | ⟨rfl, rfl⟩ | checks
      · obtain ⟨rfl, rfl⟩ := eq_of_getElem?_singleton found
        obtain ⟨rfl, same⟩ := Option.ite_none_right_eq_some.mp inside
        exact .inr (.inl ⟨rfl, (Option.some.inj same).symm⟩)
      · obtain ⟨rfl, rfl⟩ := eq_of_getElem?_singleton found
        obtain ⟨field, declares, rfl⟩ := Option.map_eq_some_iff.mp inside
        exact .inr (.inr (flat field (List.mem_of_getElem? declares)))
      · have check := checks step (List.mem_of_getElem? found)
        cases step with
        | object | array | define => cases check
        | _ => cases inside

theorem declaredOnce_of_flat {fields : List Field} {tag itemTag : Option ErrorTag} {name : String}
    (flat : ∀ field ∈ fields, ∀ step ∈ field.chain, step.isCheck) :
    DeclaredOnce [.array [.object fields itemTag] tag] name := by
  have only : ∀ outer index inner innerTag,
      stepAt [.array [.object fields itemTag] tag] outer index = some (.object inner innerTag) →
        outer = [(0, 0)] ∧ index = 0 := by
    intro outer index inner innerTag here
    obtain ⟨chain, chainHere, found⟩ := stepAt_eq_some.mp here
    rcases chainAt_of_flat flat outer chainHere with ⟨-, rfl⟩ | ⟨same, rfl⟩ | checks
    · cases (eq_of_getElem?_singleton found).2
    · exact ⟨same, (eq_of_getElem?_singleton found).1⟩
    · cases checks _ (List.mem_of_getElem? found)
  intro outer index _ _ outer' index' _ _ here _ here' _
  obtain ⟨rfl, rfl⟩ := only _ _ _ _ here
  exact only _ _ _ _ here'

/-- The fields of an object differ by their names. -/
theorem Sound.position_unique {count : Nat} {fields : List Field} {tag : Option ErrorTag}
    (sound : Sound count (.object fields tag)) {position position' : Nat} {field field' : Field}
    (found : fields[position]? = some field) (found' : fields[position']? = some field')
    (same : field'.name = field.name) : position' = position := by
  obtain ⟨valid, -⟩ := List.getElem?_eq_some_iff.mp found'
  refine (List.getElem?_inj (by rwa [List.length_map]) (sound.distinct _ _ rfl)).mp ?_
  rw [List.getElem?_map, List.getElem?_map, found, found', Option.map_some, Option.map_some, same]

section Visits

variable {template : Template} {bindings : Bindings} {budget : Nat} {value : Json} {known : Meta}
  {left : Nat} {before : List Moment} {spot : Spot} {index : Nat} {chain : List Step} {given : Json}
  {now : Meta}

/-- A run of a schema without references comes to direct spots only. -/
theorem Visits.direct (coherent : template.Coherent)
    (free : ChainEverywhere (fun step => step.isReference = false) template.root)
    (visit : Visits template.bodies bindings budget template.root value known left before spot index
      chain given now) : spot.Direct := by
  induction visit with
  | root => exact nofun
  | next _ _ ih => exact ih
  | field _ _ _ ih | item _ _ _ ih | definition _ _ ih => exact List.forall_mem_cons.mpr ⟨nofun, ih⟩
  | reference visit _ _ => cases (everywhere_stepAt free (visit.step_at coherent)).here

/-! ### Publications of one object -/

/-- **Behind a field of an object nothing is published under its name**, if one object alone
declares it. -/
theorem publication_eq_none {count : Nat} {name : String} {fields : List Field}
    {tag : Option ErrorTag} {rest : List Step} {earlier : Nat} {field : Field} {moment : Moment}
    (coherent : template.Coherent) (sound : ChainEverywhere (Sound count) template.root)
    (free : ChainEverywhere (fun step => step.isReference = false) template.root)
    (once : DeclaredOnce template.root name)
    (visit : Visits template.bodies bindings budget template.root value known left before spot index
      (.object fields tag :: rest) given now)
    (declares : fields[earlier]? = some field) (named : field.name = name)
    (happens : moment ∈ momentsOfChain bindings (invokeWithin template.bodies bindings budget)
      (momentsWithin template.bodies bindings budget) [] 0 template.root value known)
    (behind : moment.Behind spot index (earlier + 1)) : moment.publication? name = none := by
  cases moment with
  | begun => rfl
  | settled place place' position other result =>
      obtain ⟨_, _, done, later, _, _, _, _, _, _, visit', rfl, -⟩ := settled_mem_visits happens
      have here := visit.step_at coherent
      have here' := visit'.step_at coherent
      have found : (done ++ other :: later)[done.length]? = some other := by simp
      have differs : name ≠ other.name := by
        intro same
        obtain ⟨address, rfl⟩ := once _ _ _ _ _ _ _ _ here
          (named ▸ List.mem_map_of_mem (List.mem_of_getElem? declares)) here'
          (same ▸ List.mem_map_of_mem (List.mem_of_getElem? found))
        rcases behind with ⟨rfl, -, le⟩ | ⟨turn, suffix⟩
        · cases here.symm.trans here'
          have position := (everywhere_stepAt sound here).here.position_unique declares found
            (same.symm.trans named.symm)
          omega
        · -- an instance of the object would be inside another one, at the same address
          have length := suffix.length_le
          rw [List.length_cons, ← (visit.direct coherent free).length_address template.root,
            ← (visit'.direct coherent free).length_address template.root, address] at length
          omega
      obtain ⟨_, _, publishes⟩ := other
      cases publishes with
      | false => rfl
      | true => exact if_neg differs

end Visits

/-! ### Comparisons inside an object -/

section Inside

variable {template : Template} {count : Nat} {name : String} {outer address : Address}
  {place position earlier index : Nat} {fields : List Field} {tag : Option ErrorTag} {field : Field}
  {step : Step} (object : stepAt template.root outer place = some (.object fields tag))
  (declares : fields[earlier]? = some field) (named : field.name = name)
  (inside : (place, position) :: outer <:+ address)
  (here : stepAt template.root address index = some step) (depends : step.dependency? = some name)
include object declares named inside here depends

/-- **A comparison is behind the field that it depends on.** -/
theorem declared_before (coherent : template.Coherent)
    (sound : ChainEverywhere (Sound count) template.root) (once : DeclaredOnce template.root name) :
    earlier < position := by
  obtain ⟨declaration, resolves⟩ := exists_resolve_of_ok (coherent.accepted _ _ _ _ here depends)
  obtain ⟨⟨further, less, suffix⟩, fields', tag', field', object', declares', named'⟩ :=
    resolve_spec resolves
  obtain ⟨same, index⟩ := once _ _ _ _ _ _ _ _ object
    (named ▸ List.mem_map_of_mem (List.mem_of_getElem? declares)) object'
    (named' ▸ List.mem_map_of_mem (List.mem_of_getElem? declares'))
  rw [same, index] at object' suffix
  cases object.symm.trans object'
  have unique := (everywhere_stepAt sound object).here.position_unique declares declares'
    (named'.trans named.symm)
  have turns : (place, further) :: outer = (place, position) :: outer :=
    (List.suffix_of_suffix_length_le suffix inside (Nat.le_refl _)).eq_of_length rfl
  cases turns
  rwa [← unique]

/-- A field is published if a comparison inside the object depends on it. -/
theorem published_of_dependency (sound : ChainEverywhere (Sound count) template.root) :
    ∃ chain, field = .mk name chain true := by
  obtain ⟨name', chain, publishes⟩ := field
  cases named
  cases publishes with
  | true => exact ⟨chain, rfl⟩
  | false =>
      have unread := (everywhere_stepAt sound object).here.publishes _ _ _ _ rfl
        (List.mem_of_getElem? declares)
      obtain ⟨whole, wholeHere, found⟩ := stepAt_eq_some.mp here
      have among := everywhere_inside object unread inside wholeHere
      exact absurd depends (everywhere_of_mem among (List.mem_of_getElem? found)).here

end Inside

end Step

/-! ### What an object answers -/

/-- **An object answers under the name of a field what the field is settled with.** -/
theorem Field.find?_validateAll {bindings : Bindings} {call : Nat → Validator}
    {done later : List Field} {name : String} {chain : List Step} {publishes : Bool}
    {members : Dictionary Json}
    (distinct : ((done ++ .mk name chain publishes :: later).map Field.name).Nodup) :
    ∀ {known : Meta} {first outcome : Outcome (Dictionary Json)} {one : Outcome (Option Json)},
      validateAll bindings call done members known = some first →
      validate bindings call (.mk name chain publishes) ((Dictionary.find? name members).getD .null)
        first.known = some one →
      validateAll bindings call (done ++ .mk name chain publishes :: later) members known =
        some outcome →
      Dictionary.find? name outcome.result = some (one.result.getD .null) := by
  induction done with
  | nil =>
      intro known first outcome one settles oneEnds ends
      cases settles
      obtain ⟨one', oneEnds', others, othersEnd, rfl⟩ := Run.bind_eq_some.mp ends
      obtain ⟨last, lastEnds, rfl⟩ := Run.map_eq_some.mp othersEnd
      cases oneEnds.symm.trans oneEnds'
      exact (Dictionary.find?_insert _ _ _ _).trans (if_pos rfl)
  | cons field done ih =>
      intro known first outcome one settles oneEnds ends
      obtain ⟨other, chain', publishes'⟩ := field
      obtain ⟨absent, distinct⟩ := List.nodup_cons.mp distinct
      obtain ⟨start, startEnds, rest, restEnds, rfl⟩ := Run.bind_eq_some.mp settles
      obtain ⟨middle, middleEnds, rfl⟩ := Run.map_eq_some.mp restEnds
      obtain ⟨start', startEnds', others, othersEnd, rfl⟩ := Run.bind_eq_some.mp ends
      obtain ⟨last, lastEnds, rfl⟩ := Run.map_eq_some.mp othersEnd
      cases startEnds.symm.trans startEnds'
      have differs : name ≠ other := by
        rintro rfl
        exact absent (by simp [Field.name])
      rw [Dictionary.find?_insert, if_neg differs]
      exact ih distinct middleEnds oneEnds lastEnds

namespace Template

variable {text : String} {template : Template} {bindings : Bindings} {budget : Nat} {value : Json}

/-- **An instance of an object answers what its fields are settled with**, in a schema without
references. What the object answers is that of a run without a budget. -/
theorem answers_settled (compiles : Template.ofText text = .ok template)
    (free : Step.ChainEverywhere (fun step => step.isReference = false) template.root)
    {known : Meta} {object : Spot} {place position : Nat} {field : Field} {result : Option Json}
    (settled : .settled object place position field result ∈
      template.moments bindings budget value known) :
    ∃ fields tag members start outcome output,
      .begun object place (.object fields tag) (.object members) start ∈
        template.moments bindings budget value known ∧
      (Step.object fields tag).validate bindings (Step.invoke template.bodies bindings)
        (.object members) start = some outcome ∧
      outcome.result = some (.object output) ∧
      Dictionary.find? field.name output = some (result.getD .null) := by
  obtain ⟨left, before, done, later, tag, rest, members, start, first, one, visit, -, settles,
    ends, rfl⟩ := Step.settled_mem_visits settled
  obtain ⟨name, chain, publishes⟩ := field
  have here := visit.step_at (ofText_coherent compiles)
  have sound := Step.everywhere_stepAt (ofText_sound compiles) here
  obtain ⟨around, aroundHere, found⟩ := Step.stepAt_eq_some.mp here
  have defined :
      ∀ definition ∈ Step.definitions (.object (done ++ .mk name chain publishes :: later) tag),
      template.bodies[definition.1]? = some definition.2 := fun definition member =>
    ofText_defines compiles _ (Step.definitions_subset_of_chainAt aroundHere
      (Step.definitions_subset_of_mem (List.mem_of_getElem? found) member))
  have ends' : ((Step.object (done ++ .mk name chain publishes :: later) tag).validate bindings
      (Step.invoke template.bodies bindings) (.object members)).Ends start :=
    Step.validate_ends_of_free _ (Step.everywhere_stepAt free here) defined _ _
  obtain ⟨outcome, answers⟩ := ends'
  have inner := answers
  simp only [Step.validate] at inner
  rw [if_neg (by simp)] at inner
  obtain ⟨validated, validates, rfl⟩ := Run.map_eq_some.mp inner
  have larger : ∀ handle value, Run.Extends (Step.invoke template.bodies bindings handle value)
      (Step.invokeWithin template.bodies bindings left handle value) := Step.invoke_extends left
  exact ⟨_, _, _, _, _, _, Step.begun_mem_iff_visits.mpr ⟨_, _, _, visit⟩, answers, rfl,
    Field.find?_validateAll (sound.here.distinct _ _ rfl)
      (Field.validateAll_extends larger _ _ _ _ settles)
      (Field.validate_extends larger _ _ _ _ ends) validates⟩

/-! ### Comparisons -/

/-- **A comparison reads what its object answers.** In a schema without references let a comparison
depend on a name that one object alone declares. Wherever it is evaluated inside an instance of this
object whose field of that name has passed, it compares with what the instance answers under the
name. -/
theorem reads_stored (compiles : Template.ofText text = .ok template)
    (free : Step.ChainEverywhere (fun step => step.isReference = false) template.root)
    {before later : List Moment} {spot : Spot} {index : Nat} {step : Step} {given : Json}
    {now : Meta} {name : String}
    (run : template.moments bindings budget value .empty =
      before ++ Moment.begun spot index step given now :: later)
    (depends : step.dependency? = some name) (once : Step.DeclaredOnce template.root name)
    {object : Spot} {place position earlier : Nat} {field : Field} {stored : Json}
    (inside : ⟨place, .field position⟩ :: object <:+ spot) (named : field.name = name)
    (passed : .settled object place earlier field (some stored) ∈
      template.moments bindings budget value .empty) :
    (Bound.field name).resolve bindings given now = stored ∧
      ∃ fields tag members start outcome output,
        .begun object place (.object fields tag) (.object members) start ∈
          template.moments bindings budget value .empty ∧
        (Step.object fields tag).validate bindings (Step.invoke template.bodies bindings)
          (.object members) start = some outcome ∧
        outcome.result = some (.object output) ∧ Dictionary.find? name output = some stored := by
  have coherent := ofText_coherent compiles
  have sound := ofText_sound compiles
  obtain ⟨left, rest, visit⟩ := Step.begun_iff_visits.mp ⟨later, run⟩
  obtain ⟨_, _, done, others, _, _, _, _, _, _, visit', rfl, -⟩ := Step.settled_mem_visits passed
  have here := visit.step_at coherent
  have objectHere := visit'.step_at coherent
  have declares : (done ++ field :: others)[done.length]? = some field := by simp
  have enters := (visit.direct coherent free).address_suffix template.root inside
  have less :=
    Step.declared_before objectHere declares named enters here depends coherent sound once
  obtain ⟨chain, rfl⟩ :=
    Step.published_of_dependency objectHere declares named enters here depends sound
  obtain ⟨first, field', result', since, rfl, behind⟩ := visit.settledSince _ _ _ _ inside less
  have settled : .settled object place done.length field' result' ∈
      template.moments bindings budget value .empty := by
    rw [run]
    simp
  obtain ⟨rfl, rfl⟩ := Step.settled_unique passed settled
  have silent : Moment.lastPublished name since = none :=
    Moment.lastPublished_eq_none fun moment member =>
    Step.publication_eq_none coherent sound free once visit' declares named
      (by rw [← moments, run]; simp [member]) (behind moment member)
  have reads : now.published? name = some stored := by
    have follows := visit.follows name
    rw [start_empty, Moment.lastPublished_append, Moment.lastPublished, silent] at follows
    rw [follows]
    simp [Moment.publication?]
  refine ⟨?_, answers_settled compiles free passed⟩
  rw [Bound.resolve, reads, Option.getD_some]

/-- In the second of two objects `m` is compared with the `n` of this object. -/
theorem reads_stored_item :
    ∃ template, Template.ofText "@a(@o(n: @s, m: @c(=n)))" = .ok template ∧
      Step.ChainEverywhere (fun step => step.isReference = false) template.root ∧
      Step.DeclaredOnce template.root "n" ∧
      ∃ before later spot index step given now object place position earlier field,
        let value : Json := .array [.object [("m", .string "a"), ("n", .string "a")],
          .object [("m", .string "a"), ("n", .string "b")]]
        template.moments .empty 0 value .empty =
        before ++ Moment.begun spot index step given now :: later ∧
        step.dependency? = some "n" ∧ ⟨place, .field position⟩ :: object <:+ spot ∧
        field.name = "n" ∧
        .settled object place earlier field (some (.string "b")) ∈
          template.moments .empty 0 value .empty ∧
        (Bound.field "n").resolve .empty given now = .string "b" ∧
        ∃ fields tag members start outcome output,
          .begun object place (.object fields tag) (.object members) start ∈
            template.moments .empty 0 value .empty ∧
          (Step.object fields tag).validate .empty (Step.invoke template.bodies .empty)
            (.object members) start = some outcome ∧
          outcome.result = some (.object output) ∧
          Dictionary.find? "n" output = some (.string "b") := by
  let name : Field := .mk "n" [.primitive .string none] true
  let object : Step :=
    .object [name, .mk "m" [.comparison .equal (.field "n") none] false] none
  let root : List Step := [.array [object] none]
  let first : Json := .object [("m", .string "a"), ("n", .string "a")]
  let second : Json := .object [("m", .string "a"), ("n", .string "b")]
  have compiles : Template.ofText "@a(@o(n: @s, m: @c(=n)))" = .ok ⟨root, [], []⟩ := by cbv
  have free : Step.ChainEverywhere (fun step => step.isReference = false) root := by
    repeat' constructor
  have once : Step.DeclaredOnce root "n" :=
    Step.declaredOnce_of_flat (by simp [name, Field.chain, Step.isCheck])
  have start : Step.Visits [] .empty 0 root (.array [first, second]) .empty 0 [] [] 0 root
    (.array [first, second]) .empty := .root
  have validates :
      (Step.validateChain .empty (Step.invokeWithin [] .empty 0) [object]).validateItems 0
      [first] .empty = some ⟨[first], [], ⟨[], [("n", .string "a")], none, []⟩⟩ := by cbv
  have settles : Field.validateAll .empty (Step.invokeWithin [] .empty 0) [name]
      [("m", .string "a"), ("n", .string "b")] ⟨[.index 1], [("n", .string "a")], none, []⟩ =
        some ⟨[("n", .string "b")], [], ⟨[.index 1], [("n", .string "b")], none, []⟩⟩ := by cbv
  have visit := Step.Visits.field [name] (Step.Visits.item [first] start validates) settles
  obtain ⟨later, run⟩ := Step.begun_iff_visits.mpr ⟨_, _, visit⟩
  have passed : Moment.settled [⟨0, .item 1⟩] 0 0 name (some (.string "b")) ∈
      Field.momentsOfAll .empty (Step.invokeWithin [] .empty 0) (Step.momentsWithin [] .empty 0)
        [⟨0, .item 1⟩] 0 0 [name] [("m", .string "a"), ("n", .string "b")]
        ⟨[.index 1], [("n", .string "a")], none, []⟩ := .tail _ (.head _)
  have whole : Template.moments ⟨root, [], []⟩ .empty 0 (.array [first, second]) .empty = _ := run
  have happens : Moment.settled [⟨0, .item 1⟩] 0 0 name (some (.string "b")) ∈
      Template.moments ⟨root, [], []⟩ .empty 0 (.array [first, second]) .empty := by
    rw [whole]
    exact List.mem_append_left _ (List.mem_append_right _ (List.mem_cons_of_mem _ passed))
  exact ⟨_, compiles, free, once, _, later, _, _, _, _, _, [⟨0, .item 1⟩], 0, 1, 0, name, run, rfl,
    List.suffix_rfl, rfl, happens,
    reads_stored compiles free run rfl once List.suffix_rfl rfl happens⟩

end Template

end Schemata
