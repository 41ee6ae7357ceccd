/-
**What a comparison reads under the name of a field.**

A field that others depend on publishes what its chain answers, for the rest of the run and under
its name only. So what is found there is what was published last in the whole run: by the field of
the enclosing object, or by a field of this name anywhere else.

* `Moment.lastPublished` is the value published last among some moments;
* `Meta.follows_chronicle`: the moments of a run tell what it publishes;
* `Step.Visits.follows`: at every visit of a run the metadata hold what was published last before
  it;
* `Template.fails_unless_published`: a comparison with a field reads that, so after a failure of the
  field it fails too, unless another field of this name has been published in the run.
-/

import Mathlib
import Schemata.Proofs.Evaluation.Chronicle
import Schemata.Proofs.Evaluation.Order

namespace Schemata

/-! ### Publications -/

/-- What a moment publishes under a name: the result of a field of this name that others need. -/
def Moment.publication? (name : String) : Moment → Option Json
  | .settled _ _ _ (.mk field _ true) result => if name = field then result else none
  | _ => none

/-- **The value that is published last** under a name. -/
def Moment.lastPublished (name : String) : List Moment → Option Json
  | [] => none
  | moment :: rest => (lastPublished name rest).or (moment.publication? name)

/-- Metadata hold what was published last among some moments, or else what they held before. -/
def Meta.Follows (after known : Meta) (moments : List Moment) : Prop :=
  ∀ name, after.published? name = (Moment.lastPublished name moments).or (known.published? name)

namespace Moment

variable {name : String}

theorem lastPublished_append (first second : List Moment) :
    lastPublished name (first ++ second) =
      (lastPublished name second).or (lastPublished name first) := by
  induction first with
  | nil => exact (Option.or_none).symm
  | cons moment rest ih => simp only [List.cons_append, lastPublished, ih, Option.or_assoc]

theorem lastPublished_eq_none {moments : List Moment}
    (silent : ∀ moment ∈ moments, moment.publication? name = none) :
    lastPublished name moments = none := by
  induction moments with
  | nil => rfl
  | cons moment rest ih =>
      obtain ⟨here, others⟩ := List.forall_mem_cons.mp silent
      rw [lastPublished, ih others, here]
      rfl

/-- What is published last is the result of a field that has passed. -/
theorem settled_of_lastPublished {moments : List Moment} {value : Json}
    (published : lastPublished name moments = some value) :
    ∃ spot index position chain,
      .settled spot index position (.mk name chain true) (some value) ∈ moments := by
  induction moments with
  | nil => cases published
  | cons moment rest ih =>
      rw [lastPublished, Option.or_eq_some_iff] at published
      rcases published with later | ⟨-, here⟩
      · obtain ⟨spot, index, position, chain, member⟩ := ih later
        exact ⟨spot, index, position, chain, List.mem_cons_of_mem _ member⟩
      · unfold publication? at here
        split at here
        · split at here
          · rename_i same
            subst same here
            exact ⟨_, _, _, _, List.mem_cons_self⟩
          · cases here
        · cases here

end Moment

namespace Meta.Follows

variable {known middle after : Meta} {first second : List Moment}

/-- Where nothing is published nothing changes. -/
theorem of_published_eq (same : after.published = known.published) : after.Follows known [] :=
  fun name => congrArg (Dictionary.find? name) same

theorem append (firstFollows : middle.Follows known first)
    (secondFollows : after.Follows middle second) : after.Follows known (first ++ second) := by
  intro name
  rw [secondFollows name, firstFollows name, Moment.lastPublished_append, Option.or_assoc]

/-- A beginning publishes nothing. -/
theorem begun (spot : Spot) (index : Nat) (step : Step) (value : Json)
    (follows : after.Follows known second) (given : Meta) :
    after.Follows known (.begun spot index step value given :: second) := by
  intro name
  rw [follows name]
  exact congrArg (Option.or · _) (Option.or_none).symm

end Meta.Follows

/-! ### Runs -/

/-- **Moments tell what is published**: the results of fields, and nothing else. -/
theorem Meta.follows_chronicle (bindings : Bindings) :
    Moment.Chronicle bindings fun moments known _ after => after.Follows known moments where
  nil _ := .of_published_eq rfl
  append := Meta.Follows.append
  inside _ _ _ _ _ follows := follows
  passed _ _ _ _ known _ := .begun _ _ _ _ (.of_published_eq rfl) known
  failed _ _ step _ known _ _ outcome _ ends := by
    refine .begun _ _ _ _ (.of_published_eq ?_) known
    generalize step.tag? = tag at ends
    cases tag <;> cases ends <;> rfl
  settled spot index position name chain publishes result known silent := by
    intro other
    rcases silent with rfl | rfl
    · rfl
    · cases publishes with
      | false => rfl
      | true =>
          change _ = ((if other = name then none else none : Option Json)).or _
          rw [ite_self]
          rfl
  published spot index position name chain answer known := by
    intro other
    change _ = ((if other = name then some answer else none : Option Json)).or _
    rw [Meta.published?_publish]
    split <;> rfl

namespace Step

variable {bodies : List (List Step)} {bindings : Bindings} {budget : Nat} {root : List Step}
  {value : Json} {known : Meta} {left : Nat} {before : List Moment} {spot : Spot} {index : Nat}
  {chain : List Step} {given : Json} {now : Meta}

/-- **At every visit the metadata hold what was published last before it.** -/
theorem Visits.follows
    (visit : Visits bodies bindings budget root value known left before spot index chain
      given now) :
    now.Follows known before := by
  have chronicle := Meta.follows_chronicle bindings
  have calls : ∀ budget, (momentsWithin bodies bindings budget).Tells _ _ := chronicle.invokeWithin
  induction visit with
  | root => exact .of_published_eq rfl
  | next visit passes ih => exact ih.append (chronicle.validate (calls _) _ _ _ _ _ _ passes)
  | field _ visit settles ih =>
      exact ih.append (.begun _ _ _ _ (chronicle.validateAll (calls _) _ _ _ _ _ _ _ settles) _)
  | item _ visit validates ih =>
      refine ih.append (.begun _ _ _ _ (chronicle.validateItems ?_ _ _ _ _ validates) _)
      exact fun _ _ _ _ ends => chronicle.validateChain (calls _) _ _ _ _ _ _ ends
  | reference visit found ih => exact ih.append (.begun _ _ _ _ (.of_published_eq rfl) _)
  | definition visit found ih => exact ih.append (.begun _ _ _ _ (.of_published_eq rfl) _)

/-- Nothing is in a relation to null. -/
theorem compares_null (relation : Relation) (value : Json) :
    Check.compares relation value .null = false := by
  cases value <;> rfl

theorem comparesLength_null (relation : Relation) (value : Json) :
    Check.comparesLength relation value .null = false := by
  unfold Check.comparesLength
  split
  · exact compares_null relation _
  · rfl

/-- **A comparison with a field that has published nothing fails.** -/
theorem validate_of_not_published {step : Step} {name : String}
    (depends : step.dependency? = some name) (absent : now.published? name = none)
    (call : Nat → Validator) :
    ∃ outcome, step.validate bindings call given now = some outcome ∧ outcome.result = none := by
  have fails : ∀ tag check params, ∃ outcome,
      ErrorTag.require bindings tag check params false given now = some outcome ∧
        outcome.result = none := by
    intro tag check params
    cases tag <;> exact ⟨_, rfl, rfl⟩
  have compared : ∀ (tag : Option ErrorTag) (check : String) (holds : Json → Json → Bool)
      (relation : Relation), holds given .null = false → ∃ outcome,
      (Bound.field name).validateRelation bindings tag check holds relation given now =
        some outcome ∧ outcome.result = none := by
    intro tag check holds relation unrelated
    obtain ⟨outcome, ends, none⟩ := fails tag check [.string relation.symbol, .null]
    refine ⟨_, Run.bind_eq_some.mpr ⟨_, rfl, outcome, ?_, rfl⟩, none⟩
    simp only [Bound.resolve, absent, Option.getD_none, unrelated]
    exact ends
  unfold dependency? at depends
  split at depends
  · cases depends
    exact compared _ _ _ _ (compares_null _ _)
  · cases depends
    exact compared _ _ _ _ (comparesLength_null _ _)
  · cases depends

end Step

namespace Template

/-- From fresh metadata every chain is run from fresh metadata. -/
theorem start_empty (template : Template) : template.start .empty = .empty := by
  unfold start
  induction template.suffixes with
  | nil => rfl
  | cons suffix rest ih =>
      rw [List.foldr_cons, ih]
      cases suffix <;> rfl

/-- **A comparison with a field that has failed fails too, unless another field of this name has
been published in the run.** The comparison reads what was published last. -/
theorem fails_unless_published (template : Template) (bindings : Bindings) (budget : Nat)
    (value : Json) {before later : List Moment} {spot : Spot} {index : Nat} {step : Step}
    {given : Json} {now : Meta}
    {name : String} {object : Spot} {place position : Nat} {field : Field}
    (run : template.moments bindings budget value .empty =
      before ++ .begun spot index step given now :: later)
    (depends : step.dependency? = some name)
    (failed : .settled object place position field none ∈ before) :
    now.published? name = Moment.lastPublished name before ∧
      ((∀ call, ∃ outcome, step.validate bindings call given now = some outcome ∧
          outcome.result = none) ∨
        ∃ object' place' position' chain published,
          Moment.lastPublished name before = some published ∧
          .settled object' place' position' (.mk name chain true) (some published) ∈ before ∧
          (object', place', position') ≠ (object, place, position)) := by
  obtain ⟨left, rest, visit⟩ := Step.begun_iff_visits.mp ⟨later, run⟩
  have reads : now.published? name = Moment.lastPublished name before := by
    have follows := visit.follows name
    rw [start_empty] at follows
    exact follows.trans Option.or_none
  refine ⟨reads, ?_⟩
  cases last : Moment.lastPublished name before with
  | none => exact .inl (Step.validate_of_not_published depends (reads.trans last))
  | some published =>
      obtain ⟨object', place', position', chain, settled⟩ := Moment.settled_of_lastPublished last
      refine .inr ⟨object', place', position', chain, published, rfl, settled, fun same => ?_⟩
      cases same
      have mem : ∀ {moment}, moment ∈ before →
          moment ∈ template.moments bindings budget value .empty := by
        intro moment member
        rw [run]
        exact List.mem_append_left _ member
      cases (Step.settled_unique (mem failed) (mem settled)).2

/-- The field `n` fails in a single object, and the comparison with it fails. -/
theorem fails_unless_published_sibling :
    ∃ template, Template.ofText "@o(n: @s, m: @c(=n))" = .ok template ∧
      ∃ before later spot index step given now object place position field,
        template.moments .empty 0 (.object []) .empty =
          before ++ .begun spot index step given now :: later ∧
        step.dependency? = some "n" ∧ .settled object place position field none ∈ before ∧
        now.published? "n" = Moment.lastPublished "n" before ∧
        ((∀ call, ∃ outcome, step.validate .empty call given now = some outcome ∧
            outcome.result = none) ∨
          ∃ object' place' position' chain published,
            Moment.lastPublished "n" before = some published ∧
            .settled object' place' position' (.mk "n" chain true) (some published) ∈ before ∧
            (object', place', position') ≠ (object, place, position)) := by
  let name : Field := .mk "n" [.primitive .string none] true
  let root : List Step :=
    [.object [name, .mk "m" [.comparison .equal (.field "n") none] false] none]
  have compiles : Template.ofText "@o(n: @s, m: @c(=n))" = .ok ⟨root, [], []⟩ := by cbv
  have start :
      Step.Visits [] .empty 0 root (.object []) .empty 0 [] [] 0 root (.object []) .empty :=
    .root
  let before : List Moment :=
    [.begun [] 0 root[0] (.object []) .empty,
      .begun [⟨0, .field 0⟩] 0 (.primitive .string none) .null ⟨[.key "n"], [], none, []⟩,
      .settled [] 0 0 name none]
  have settles : Field.validateAll .empty (Step.invokeWithin [] .empty 0) [name] [] .empty =
      some ⟨[("n", .null)], [], ⟨[], [], some "string", []⟩⟩ := rfl
  have visit : Step.Visits [] .empty 0 root (.object []) .empty 0 before [⟨0, .field 1⟩] 0
      [.comparison .equal (.field "n") none] .null ⟨[.key "m"], [], some "string", []⟩ :=
    .field [name] start settles
  obtain ⟨later, run⟩ := Step.begun_iff_visits.mpr ⟨_, _, visit⟩
  have failed : Moment.settled [] 0 0 name none ∈ before := .tail _ (.tail _ (.head _))
  exact ⟨_, compiles, _, later, _, _, _, _, _, _, _, _, _, run, rfl, failed,
    fails_unless_published ⟨root, [], []⟩ .empty 0 (.object []) run rfl failed⟩

/-- **A field of an earlier item stands in for one that has failed.** In the second of two objects
the field `n` fails, and `m` equals what the first one has published. -/
theorem exists_passes_after_failure :
    ∃ template, Template.ofText "@a(@o(n: @s, m: @c(=n)))" = .ok template ∧
      ∃ before later spot index step given now declaration object field,
        template.moments .empty 0
            (.array [.object [("m", .string "a"), ("n", .string "a")],
              .object [("m", .string "a")]]) .empty =
          before ++ .begun spot index step given now :: later ∧
        step.dependency? = some "n" ∧
        Step.resolve template.root "n" (spot.address template.root) = some declaration ∧
        spot.InsideOf template.root declaration object ∧
        .settled object declaration.index declaration.position field none ∈ before ∧
        ∀ call, ∃ outcome, step.validate .empty call given now = some outcome ∧
          outcome.result = some (.string "a") := by
  let name : Field := .mk "n" [.primitive .string none] true
  let object : Step :=
    .object [name, .mk "m" [.comparison .equal (.field "n") none] false] none
  let first : Json := .object [("m", .string "a"), ("n", .string "a")]
  let second : Json := .object [("m", .string "a")]
  have compiles : Template.ofText "@a(@o(n: @s, m: @c(=n)))" =
      .ok ⟨[.array [object] none], [], []⟩ := by cbv
  have start :
      Step.Visits [] .empty 0 [.array [object] none] (.array [first, second]) .empty 0 [] [] 0
    [.array [object] none] (.array [first, second]) .empty := .root
  have validates :
      (Step.validateChain .empty (Step.invokeWithin [] .empty 0) [object]).validateItems 0
      [first] .empty = some ⟨[first], [], ⟨[], [("n", .string "a")], none, []⟩⟩ := by cbv
  have settles :
      Field.validateAll .empty (Step.invokeWithin [] .empty 0) [name] [("m", .string "a")]
      ⟨[.index 1], [("n", .string "a")], none, []⟩ =
        some ⟨[("n", .null)], [], ⟨[.index 1], [("n", .string "a")], some "string", []⟩⟩ := by cbv
  have item := Step.Visits.item [first] start validates
  have visit := Step.Visits.field [name] item settles
  obtain ⟨later, run⟩ := Step.begun_iff_visits.mpr ⟨_, _, visit⟩
  have failed : Moment.settled [⟨0, .item 1⟩] 0 0 name none ∈
      Field.momentsOfAll .empty (Step.invokeWithin [] .empty 0) (Step.momentsWithin [] .empty 0)
        [⟨0, .item 1⟩] 0 0 [name] [("m", .string "a")]
        ⟨[.index 1], [("n", .string "a")], none, []⟩ := .tail _ (.head _)
  have passes : ∀ call, ∃ outcome, Step.validate .empty call (.comparison .equal (.field "n") none)
      (.string "a") ⟨[.index 1, .key "m"], [("n", .string "a")], some "string", []⟩ = some outcome ∧
        outcome.result = some (.string "a") := fun call =>
    ⟨⟨some (.string "a"), [], ⟨[.index 1, .key "m"], [("n", .string "a")], some "string", []⟩⟩,
      by cbv, rfl⟩
  exact ⟨_, compiles, _, later, _, _, _, _, _, ⟨[(0, 0)], 0, 0⟩, [⟨0, .item 1⟩], name,
    run, rfl, rfl, ⟨1, Nat.one_pos, List.suffix_rfl, rfl⟩,
    List.mem_append_right _ (List.mem_cons_of_mem _ failed), passes⟩

end Template

end Schemata
