/-
**Fields are settled before comparisons depend on them.**

The compiler checks the order of fields where a comparison is written. A run may come to the
comparison from somewhere else, by a reference to the named schema that it is written in; then the
object around the comparison need not be there.

* `Spot.address` is the place in the template of the chain that is evaluated at a spot, and
  `Step.Visits.chain_at` says that this chain is evaluated there;
* `Step.Visits.earlierSettled`: inside a field the fields before it are settled;
* `Template.settled_or_detached`: a comparison with a field is evaluated in an object that has
  settled the field, or in a call by a reference that leads into the object from outside.
-/

import Mathlib
import Schemata.Proofs.Evaluation.Visit
import Schemata.Proofs.Template.Coherence

namespace Schemata

/-! ### Places in the template -/

/-- **The place in a template of what is evaluated at a spot.** A reference leads to the definition
of its name. -/
def Spot.address (root : List Step) : Spot → Address
  | [] => []
  | ⟨index, .field position⟩ :: outer => (index, position) :: address root outer
  | ⟨index, .item _⟩ :: outer | ⟨index, .definition _⟩ :: outer => (index, 0) :: address root outer
  | ⟨_, .reference handle⟩ :: _ => (Step.bodyAddress root handle).getD []

/-- **A spot is inside this instance of the declaring object**, in a field behind the declared
one. -/
def Spot.InsideOf (root : List Step) (declaration : Declaration) (spot object : Spot) : Prop :=
  ∃ position, declaration.position < position ∧
    ⟨declaration.index, .field position⟩ :: object <:+ spot ∧
    object.address root = declaration.outer

/-- **A spot is inside a call by a reference from outside**: the name is defined in a field behind
the declared one, and the reference stands in none of them. -/
def Spot.DetachedFrom (root : List Step) (declaration : Declaration) (spot : Spot) : Prop :=
  ∃ (caller : Spot) (index handle : Nat) (address : Address), ⟨index, .reference handle⟩ ::
    caller <:+ spot ∧ Step.bodyAddress root handle = some address ∧ address.LiesBehind declaration ∧
    ¬ (Spot.address root caller).LiesBehind declaration

/-- The address of a longer spot lies behind a field by its last turn, or already before it. -/
theorem Address.liesBehind_cons {turn : Nat × Nat} {outer : Address} {declaration : Declaration} :
    Address.LiesBehind (turn :: outer) declaration ↔
      (declaration.position < turn.2 ∧ declaration.index = turn.1 ∧ declaration.outer = outer) ∨
        outer.LiesBehind declaration := by
  unfold LiesBehind
  constructor
  · rintro ⟨position, less, suffix⟩
    rcases List.suffix_cons_iff.mp suffix with same | suffix
    · cases same
      exact .inl ⟨less, rfl, rfl⟩
    · exact .inr ⟨position, less, suffix⟩
  · rintro (⟨less, index, rfl⟩ | ⟨position, less, suffix⟩)
    · exact ⟨turn.2, less, index ▸ List.suffix_rfl⟩
    · exact ⟨position, less, suffix.trans (List.suffix_cons _ _)⟩

/-- **What lies behind a field is evaluated inside the object of the field, unless a reference from
outside leads there.** -/
theorem Spot.inside_or_detached {root : List Step} {declaration : Declaration} {spot : Spot}
    (behind : (spot.address root).LiesBehind declaration) :
    (∃ object, spot.InsideOf root declaration object) ∨ spot.DetachedFrom root declaration := by
  induction spot with
  | nil =>
      obtain ⟨_, _, suffix⟩ := behind
      cases List.suffix_nil.mp suffix
  | cons frame outer ih =>
      -- what holds of the outer spot holds of the longer one
      have lift : (Spot.address root outer).LiesBehind declaration →
          (∃ object, Spot.InsideOf root declaration (frame :: outer) object) ∨
            Spot.DetachedFrom root declaration (frame :: outer) := by
        intro behind
        rcases ih behind with ⟨object, position, less, suffix, here⟩ |
          ⟨caller, index, handle, address, suffix, rest⟩
        · exact .inl ⟨object, position, less, suffix.trans (List.suffix_cons _ _), here⟩
        · exact .inr ⟨caller, index, handle, address, suffix.trans (List.suffix_cons _ _), rest⟩
      obtain ⟨index, turn⟩ := frame
      cases turn with
      | field position =>
          rcases Address.liesBehind_cons.mp behind with ⟨less, rfl, here⟩ | behind
          · exact .inl ⟨outer, position, less, List.suffix_rfl, here.symm⟩
          · exact lift behind
      | item position | definition handle =>
          rcases Address.liesBehind_cons.mp behind with ⟨less, -, -⟩ | behind
          · exact absurd less (Nat.not_lt_zero _)
          · exact lift behind
      | reference handle =>
          by_cases outside : (Spot.address root outer).LiesBehind declaration
          · exact lift outside
          · cases found : Step.bodyAddress root handle with
            | none =>
                obtain ⟨_, _, suffix⟩ := behind
                rw [address, found] at suffix
                cases List.suffix_nil.mp suffix
            | some address =>
                refine .inr ⟨outer, index, handle, address, List.suffix_rfl, found, ?_, outside⟩
                rw [Spot.address, found] at behind
                exact behind

namespace Step

variable {template : Template} {bindings : Bindings} {budget : Nat} {value : Json} {known : Meta}
  {left : Nat} {before : List Moment} {spot : Spot} {index : Nat} {chain : List Step} {given : Json}
  {now : Meta}

/-! ### What is evaluated at a spot -/

/-- The step at a place is the first one of the rest of its chain. -/
theorem stepAt_of_drop {root whole rest : List Step} {address : Address} {step : Step}
    (here : chainAt root address = some whole) (dropped : whole.drop index = step :: rest) :
    stepAt root address index = some step := by
  refine stepAt_eq_some.mpr ⟨whole, here, ?_⟩
  rw [← List.head?_drop, dropped, List.head?_cons]

/-- **A run evaluates at a spot the chain at its address.** -/
theorem Visits.chain_at (coherent : template.Coherent)
    (visit : Visits template.bodies bindings budget template.root value known left before spot index
      chain given now) :
    ∃ whole, chainAt template.root (spot.address template.root) = some whole ∧
      whole.drop index = chain := by
  induction visit with
  | root => exact ⟨_, rfl, rfl⟩
  | next _ _ ih =>
      obtain ⟨whole, here, dropped⟩ := ih
      refine ⟨whole, here, ?_⟩
      rw [← List.tail_drop, dropped, List.tail_cons]
  | field _ _ _ ih =>
      obtain ⟨whole, here, dropped⟩ := ih
      refine ⟨_, (chainAt_cons (stepAt_of_drop here dropped)).trans ?_, rfl⟩
      simp [chainInside, Field.chain]
  | item _ _ _ ih =>
      obtain ⟨whole, here, dropped⟩ := ih
      exact ⟨_, chainAt_cons (stepAt_of_drop here dropped), rfl⟩
  | reference _ found _ =>
      obtain ⟨address, body, here⟩ := coherent.addressed _ _ found
      refine ⟨_, ?_, rfl⟩
      rw [Spot.address, body]
      exact here
  | definition _ found ih =>
      obtain ⟨whole, here, dropped⟩ := ih
      have defining := stepAt_of_drop here dropped
      cases found.symm.trans (coherent.defined _ _ _ _ defining)
      exact ⟨_, chainAt_cons defining, rfl⟩

/-- The step that a run begins is the one at its place. -/
theorem Visits.step_at {step : Step} {rest : List Step} (coherent : template.Coherent)
    (visit : Visits template.bodies bindings budget template.root value known left before spot index
      (step :: rest) given now) :
    stepAt template.root (spot.address template.root) index = some step := by
  obtain ⟨whole, here, dropped⟩ := visit.chain_at coherent
  exact stepAt_of_drop here dropped

/-! ### Fields that are settled -/

/-- **Around a spot the earlier fields are settled**: of every object with the spot in one of its
fields, all the fields before that one. -/
def EarlierSettled (root : List Step) (spot : Spot) (before : List Moment) : Prop :=
  ∀ (object : Spot) (place position earlier : Nat),
    ⟨place, .field position⟩ :: object <:+ spot → earlier < position →
    ∃ fields tag field result,
      stepAt root (object.address root) place = some (.object fields tag) ∧
      fields[earlier]? = some field ∧ .settled object place earlier field result ∈ before

namespace EarlierSettled

variable {root : List Step}

theorem append (settled : EarlierSettled root spot before) (later : List Moment) :
    EarlierSettled root spot (before ++ later) := by
  intro object place position earlier suffix less
  obtain ⟨fields, tag, field, result, here, found, member⟩ := settled _ _ _ _ suffix less
  exact ⟨fields, tag, field, result, here, found, List.mem_append_left _ member⟩

/-- A turn that enters no field has no fields around it. -/
theorem cons {turn : Turn} (settled : EarlierSettled root spot before)
    (other : ∀ position, turn ≠ .field position) :
    EarlierSettled root (⟨index, turn⟩ :: spot) before := by
  intro object place position earlier suffix less
  rcases List.suffix_cons_iff.mp suffix with same | suffix
  · cases same
    exact absurd rfl (other position)
  · exact settled _ _ _ _ suffix less

/-- A turn into a field needs the fields before it. -/
theorem cons_field {fields : List Field} {tag : Option ErrorTag} {position : Nat}
    (settled : EarlierSettled root spot before)
    (here : stepAt root (spot.address root) index = some (.object fields tag))
    (each : ∀ earlier < position, ∃ field result, fields[earlier]? = some field ∧
      .settled spot index earlier field result ∈ before) :
    EarlierSettled root (⟨index, .field position⟩ :: spot) before := by
  intro object place position earlier suffix less
  rcases List.suffix_cons_iff.mp suffix with same | suffix
  · cases same
    obtain ⟨field, result, found, member⟩ := each earlier less
    exact ⟨fields, tag, field, result, here, found, member⟩
  · exact settled _ _ _ _ suffix less

end EarlierSettled

/-- **Inside a field of an object the fields before it are settled.** -/
theorem Visits.earlierSettled (coherent : template.Coherent)
    (visit : Visits template.bodies bindings budget template.root value known left before spot index
      chain given now) : EarlierSettled template.root spot before := by
  induction visit with
  | root =>
      intro object place position earlier suffix
      cases List.suffix_nil.mp suffix
  | next _ _ ih => exact ih.append _
  | @field _ _ spot index done later _ _ _ tag _ _ _ _ visit settles ih =>
      refine (ih.append _).cons_field (visit.step_at coherent) fun earlier less => ?_
      have present := List.getElem?_eq_getElem less
      obtain ⟨first, result, now, whole⟩ : ∃ first result now, Field.momentsOfAll bindings
            (invokeWithin template.bodies bindings _)
            (momentsWithin template.bodies bindings _) spot index
            0 done _ _ = first ++ Moment.settled spot index (0 + earlier) done[earlier] result ::
          Field.momentsOfAll _ _ _ spot index _ _ _ now :=
            Field.momentsOfAll_settled settles present
      rw [Nat.zero_add] at whole
      refine ⟨done[earlier], result, ?_, ?_⟩
      · rw [List.getElem?_append_left less]
        exact present
      · rw [whole]
        simp
  | item _ _ _ ih => exact (ih.append _).cons nofun
  | reference _ _ ih => exact (ih.append _).cons nofun
  | definition _ _ ih => exact (ih.append _).cons nofun

end Step

/-! ### Comparisons -/

namespace Template

/-- **A comparison with a field is evaluated after the field**: in an instance of the declaring
object that has settled it; or else the comparison is written in a named schema that is called by a
reference from outside of the fields behind it. -/
theorem settled_or_detached {text : String} {template : Template}
    (compiles : Template.ofText text = .ok template) (bindings : Bindings) (budget : Nat)
    (value : Json) (known : Meta) {before later : List Moment} {spot : Spot} {index : Nat}
    {step : Step} {given : Json} {now : Meta} {name : String}
    (run : template.moments bindings budget value known =
      before ++ .begun spot index step given now :: later)
    (depends : step.dependency? = some name) :
    ∃ declaration,
      Step.resolve template.root name (spot.address template.root) = some declaration ∧
      ((∃ object field result, spot.InsideOf template.root declaration object ∧
        .settled object declaration.index declaration.position field result ∈ before ∧
        field.name = name) ∨ spot.DetachedFrom template.root declaration) := by
  have coherent := ofText_coherent compiles
  obtain ⟨left, rest, visit⟩ := Step.begun_iff_visits.mp ⟨later, run⟩
  have here := visit.step_at coherent
  obtain ⟨declaration, resolves⟩ :=
    Step.exists_resolve_of_ok (coherent.accepted _ _ _ _ here depends)
  obtain ⟨behind, fields, tag, field, declares, found, named⟩ := Step.resolve_spec resolves
  refine ⟨declaration, resolves, ?_⟩
  rcases Spot.inside_or_detached behind with ⟨object, position, less, suffix, place⟩ | detached
  · obtain ⟨fields', tag', field', result, declares', found', member⟩ :=
      visit.earlierSettled coherent _ _ _ _ suffix less
    rw [place] at declares'
    cases declares.symm.trans declares'
    cases found.symm.trans found'
    exact .inl ⟨object, field, result, ⟨position, less, suffix, place⟩, member, named⟩
  · exact .inr detached

/-- The comparison of `m` with `n`, in the object that holds both. -/
theorem settled_or_detached_sibling :
    ∃ template, Template.ofText "@o(n: @s, m: @c(=n))" = .ok template ∧
      ∃ before later spot index step given now,
        template.moments .empty 0 (.object []) .empty =
          before ++ .begun spot index step given now :: later ∧
        step.dependency? = some "n" ∧ ∃ declaration,
          Step.resolve template.root "n" (spot.address template.root) = some declaration ∧
          ((∃ object field result, spot.InsideOf template.root declaration object ∧
            .settled object declaration.index declaration.position field result ∈ before ∧
            field.name = "n") ∨ spot.DetachedFrom template.root declaration) := by
  let root : List Step := [.object [.mk "n" [.primitive .string none] true,
    .mk "m" [.comparison .equal (.field "n") none] false] none]
  have compiles : Template.ofText "@o(n: @s, m: @c(=n))" = .ok ⟨root, [], []⟩ := by cbv
  have start :
      Step.Visits [] .empty 0 root (.object []) .empty 0 [] [] 0 root (.object []) .empty :=
    .root
  obtain ⟨later, run⟩ := Step.begun_iff_visits.mpr
    ⟨_, _, .field [.mk "n" [.primitive .string none] true] start rfl⟩
  exact ⟨_, compiles, _, later, _, _, _, _, _, run, rfl,
    settled_or_detached compiles .empty 0 (.object []) .empty run rfl⟩

/-- **A reference can lead to a comparison before the field that it depends on.** -/
theorem exists_unsettled_dependency :
    ∃ template, Template.ofText "@o(a: ##s, b: @o(n: @n, m: #s(@c(=n)!'lt')))" = .ok template ∧
      ∃ before later spot index step given now,
        template.moments .empty 1 (.object []) .empty =
          before ++ .begun spot index step given now :: later ∧
        step.dependency? = some "n" ∧
        Step.resolve template.root "n" (spot.address template.root) = some ⟨[(0, 1)], 0, 0⟩ ∧
        ∀ object place position field result, .settled object place position field result ∉
          before := by
  let body : List Step := [.comparison .equal (.field "n") (some (.literal "lt"))]
  let root : List Step := [.object [.mk "a" [.call 0] false,
    .mk "b" [.object [.mk "n" [.primitive .number none] true, .mk "m" [.define 0 body] false] none]
      false] none]
  have compiles : Template.ofText "@o(a: ##s, b: @o(n: @n, m: #s(@c(=n)!'lt')))" =
      .ok ⟨root, [body], []⟩ := by cbv
  have start : Step.Visits [body] .empty 1 root (.object []) .empty 1 [] [] 0 root (.object [])
    .empty := .root
  have called := Step.Visits.reference (.field [] start rfl)
    (show [body][0]? = some body from rfl)
  obtain ⟨later, run⟩ := Step.begun_iff_visits.mpr ⟨_, _, called⟩
  refine ⟨_, compiles, _, later, _, _, _, _, _, run, rfl, rfl, ?_⟩
  intro object place position field result member
  simp [Field.momentsOfAll] at member

end Template

end Schemata
