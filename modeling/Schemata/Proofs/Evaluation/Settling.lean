/-
**What a run settles after a field.**

The fields of an object are settled one after another. So whatever is settled between one of them
and a later moment inside the object is a later field of the object, or is inside one of its later
fields.

* `Moment.Under` and `Moment.Behind` say where something is settled;
* `Step.momentsOfChain_under` and `Field.momentsOfAll_behind`: where the moments of a chain and of
  some fields are settled;
* `Step.Visits.settledSince`: what is settled after an earlier field of an object around a spot.
-/

import Schemata.Proofs.Evaluation.Order

namespace Schemata

namespace Moment

/-- **If something is settled, it is at or inside a spot.** -/
def Under (spot : Spot) : Moment → Prop
  | .begun _ _ _ _ _ => True
  | .settled place _ _ _ _ => spot <:+ place

/-- **If something is settled, it is a field of an object from a position on**, or inside the
object. -/
def Behind (spot : Spot) (index position : Nat) : Moment → Prop
  | .begun _ _ _ _ _ => True
  | .settled place step field _ _ =>
    (place = spot ∧ step = index ∧ position ≤ field) ∨ ∃ turn, ⟨index, turn⟩ :: spot <:+ place

variable {outer spot : Spot} {index position : Nat} {moment : Moment}

theorem Under.trans (suffix : outer <:+ spot) (under : moment.Under spot) : moment.Under outer := by
  cases moment with
  | begun => trivial
  | settled => exact suffix.trans under

theorem Under.of_cons {frame : Frame} (under : moment.Under (frame :: spot)) : moment.Under spot :=
  under.trans (List.suffix_cons _ _)

theorem Behind.under (behind : moment.Behind spot index position) : moment.Under spot := by
  cases moment with
  | begun => trivial
  | settled =>
      rcases behind with ⟨rfl, -, -⟩ | ⟨turn, suffix⟩
      · exact List.suffix_rfl
      · exact (List.suffix_cons _ _).trans suffix

theorem Behind.mono {earlier : Nat} (le : earlier ≤ position)
    (behind : moment.Behind spot index position) : moment.Behind spot index earlier := by
  cases moment with
  | begun => trivial
  | settled =>
      rcases behind with ⟨same, step, later⟩ | inside
      · exact .inl ⟨same, step, Nat.le_trans le later⟩
      · exact .inr inside

theorem Under.behind {turn : Turn} (under : moment.Under (⟨index, turn⟩ :: spot)) :
    moment.Behind spot index position := by
  cases moment with
  | begun => trivial
  | settled => exact .inr ⟨turn, under⟩

end Moment

/-! ### The moments of a chain -/

/-- The moments of the handles are inside the spots of their calls. -/
def Teller.Inside (tell : Teller) : Prop :=
  ∀ handle spot value known, ∀ moment ∈ tell handle spot value known, moment.Under spot

section Under

variable {bindings : Bindings} {call : Nat → Validator} {tell : Teller}

theorem Validator.momentsOfItems_under {item : Validator}
    {tellItem : Nat → Json → Meta → List Moment} {spot : Spot}
    (inside : ∀ position value known, ∀ moment ∈ tellItem position value known,
      moment.Under spot) (items : List Json) : ∀ position known,
    ∀ moment ∈ item.momentsOfItems tellItem position items known, moment.Under spot := by
  induction items with
  | nil => exact fun _ _ => List.forall_mem_nil _
  | cons value rest ih =>
      intro position known
      rw [momentsOfItems]
      refine List.forall_mem_append.mpr ⟨inside _ _ _, ?_⟩
      split
      · exact ih _ _
      · exact List.forall_mem_nil _

mutual

/-- The moments of a step are inside its spot. -/
theorem Step.moments_under (tells : tell.Inside) : (step : Step) → ∀ spot index value known,
    ∀ moment ∈ step.moments bindings call tell spot index value known, moment.Under spot
  | .object fields tag => by
      intro spot index value known
      refine List.forall_mem_cons.mpr ⟨trivial, ?_⟩
      cases value with
      | object members =>
          exact fun moment member =>
            (Field.momentsOfAll_behind tells fields _ _ _ _ _ moment member).under
      | _ => exact List.forall_mem_nil _
  | .array chain tag => by
      intro spot index value known
      refine List.forall_mem_cons.mpr ⟨trivial, ?_⟩
      cases value with
      | array items =>
          exact Validator.momentsOfItems_under (fun position value known moment member =>
            (Step.momentsOfChain_under tells chain _ _ _ _ moment member).of_cons) items 0 known
      | _ => exact List.forall_mem_nil _
  | .call handle => fun _ _ _ _ => List.forall_mem_cons.mpr
      ⟨trivial, fun moment member => (tells _ _ _ _ moment member).of_cons⟩
  | .define handle chain => fun _ _ _ _ => List.forall_mem_cons.mpr
      ⟨trivial, fun moment member => (tells _ _ _ _ moment member).of_cons⟩
  | .primitive _ _ | .equality _ _ _ | .membership _ _ | .matching _ _ _ | .comparison _ _ _
  | .lengthComparison _ _ _ => fun _ _ _ _ => List.forall_mem_singleton.mpr trivial

/-- **The moments of a chain are inside its spot.** -/
theorem Step.momentsOfChain_under (tells : tell.Inside) : (chain : List Step) →
    ∀ spot index value known,
    ∀ moment ∈ Step.momentsOfChain bindings call tell spot index chain value known,
    moment.Under spot
  | [] => fun _ _ _ _ => List.forall_mem_nil _
  | step :: rest => by
      intro spot index value known
      rw [Step.momentsOfChain_cons]
      refine List.forall_mem_append.mpr ⟨Step.moments_under tells step _ _ _ _, ?_⟩
      split
      · exact Step.momentsOfChain_under tells rest _ _ _ _
      · exact List.forall_mem_nil _

/-- **The moments of some fields are those of the fields, or inside them.** -/
theorem Field.momentsOfAll_behind (tells : tell.Inside) : (fields : List Field) →
    ∀ spot index position members known,
    ∀ moment ∈ Field.momentsOfAll bindings call tell spot index position fields members known,
      moment.Behind spot index position
  | [] => fun _ _ _ _ _ => List.forall_mem_nil _
  | .mk name chain publishes :: rest => by
      intro spot index position members known
      rw [Field.momentsOfAll]
      refine List.forall_mem_append.mpr ⟨fun moment member =>
        (Step.momentsOfChain_under tells chain _ _ _ _ moment member).behind, ?_⟩
      split
      · refine List.forall_mem_cons.mpr ⟨.inl ⟨rfl, rfl, Nat.le_refl _⟩, fun moment member => ?_⟩
        exact (Field.momentsOfAll_behind tells rest _ _ _ _ _ moment member).mono (Nat.le_succ _)
      · exact List.forall_mem_nil _

end

end Under

namespace Step

variable {bodies : List (List Step)} {bindings : Bindings} {budget : Nat} {root : List Step}
  {value : Json} {known : Meta} {left : Nat} {before : List Moment} {spot : Spot} {index : Nat}
  {chain : List Step} {given : Json} {now : Meta}

theorem momentsWithin_inside (budget : Nat) : (momentsWithin bodies bindings budget).Inside := by
  induction budget with
  | zero => exact fun _ _ _ _ => List.forall_mem_nil _
  | succ budget ih =>
      intro handle spot value known
      rw [momentsWithin]
      cases bodies[handle]? with
      | none => exact List.forall_mem_nil _
      | some body => exact momentsOfChain_under ih body _ _ _ _

/-! ### After a field -/

/-- **Whatever is settled after an earlier field of an object around a spot** is a later field of
the object, or inside the object. -/
def SettledSince (spot : Spot) (before : List Moment) : Prop :=
  ∀ (object : Spot) (place position earlier : Nat),
    ⟨place, .field position⟩ :: object <:+ spot → earlier < position →
    ∃ first field result since, before =
      first ++ Moment.settled object place earlier field result :: since ∧
      ∀ moment ∈ since, moment.Behind object place (earlier + 1)

namespace SettledSince

theorem append (settled : SettledSince spot before) {later : List Moment}
    (under : ∀ moment ∈ later, moment.Under spot) : SettledSince spot (before ++ later) := by
  intro object place position earlier suffix less
  obtain ⟨first, field, result, since, rfl, behind⟩ := settled _ _ _ _ suffix less
  refine ⟨first, field, result, since ++ later, by simp, List.forall_mem_append.mpr ⟨behind, ?_⟩⟩
  exact fun moment member => ((under moment member).trans suffix).behind

/-- A turn that enters no field has no fields around it. -/
theorem cons {turn : Turn} (settled : SettledSince spot before)
    (other : ∀ position, turn ≠ .field position) :
    SettledSince (⟨index, turn⟩ :: spot) before := by
  intro object place position earlier suffix less
  rcases List.suffix_cons_iff.mp suffix with same | suffix
  · cases same
    exact absurd rfl (other position)
  · exact settled _ _ _ _ suffix less

/-- A turn into a field comes after the fields before it. -/
theorem cons_field {position : Nat} (settled : SettledSince spot before)
    (each : ∀ earlier < position, ∃ first field result since,
      before = first ++ Moment.settled spot index earlier field result :: since ∧
        ∀ moment ∈ since, moment.Behind spot index (earlier + 1)) :
    SettledSince (⟨index, .field position⟩ :: spot) before := by
  intro object place position earlier suffix less
  rcases List.suffix_cons_iff.mp suffix with same | suffix
  · cases same
    exact each earlier less
  · exact settled _ _ _ _ suffix less

end SettledSince

/-- **At every visit, what is settled after an earlier field of an object around it is behind that
field.** -/
theorem Visits.settledSince
    (visit : Visits bodies bindings budget root value known left before spot index chain
      given now) :
    SettledSince spot before := by
  induction visit with
  | root =>
      intro object place position earlier suffix
      cases List.suffix_nil.mp suffix
  | next _ _ ih => exact ih.append (moments_under (momentsWithin_inside _) _ _ _ _ _)
  | @field left before spot index done _ _ _ _ _ _ members now outcome visit settles ih =>
      refine SettledSince.cons_field (ih.append (List.forall_mem_cons.mpr ⟨trivial,
        fun moment member =>
          (Field.momentsOfAll_behind (momentsWithin_inside _) done _ _ _ _ _ moment
          member).under⟩)) fun earlier less => ?_
      obtain ⟨first, result, next, whole⟩ : ∃ first result next,
          Field.momentsOfAll bindings (invokeWithin bodies bindings left)
              (momentsWithin bodies bindings left) spot index 0 done members now =
            first ++ Moment.settled spot index (0 + earlier) done[earlier] result ::
              Field.momentsOfAll bindings (invokeWithin bodies bindings left)
                (momentsWithin bodies bindings left) spot index (0 + earlier + 1) _ members next :=
        Field.momentsOfAll_settled settles (List.getElem?_eq_getElem less)
      rw [whole, Nat.zero_add, ← List.cons_append, ← List.append_assoc]
      exact ⟨_, _, _, _, rfl, Field.momentsOfAll_behind (momentsWithin_inside _) _ _ _ _ _ _⟩
  | item _ _ validates ih =>
      refine SettledSince.cons (ih.append (List.forall_mem_cons.mpr ⟨trivial, ?_⟩)) nofun
      exact Validator.momentsOfItems_under (fun _ _ _ moment member =>
        (momentsOfChain_under (momentsWithin_inside _) _ _ _ _ _ moment member).of_cons) _ _ _
  | reference _ _ ih | definition _ _ ih =>
      refine (ih.append ?_).cons nofun
      exact List.forall_mem_singleton.mpr trivial

end Step

end Schemata
