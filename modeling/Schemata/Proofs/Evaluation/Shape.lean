/-
**A validation keeps the shape of its value.**

What a chain answers is its value with some parts coerced, set to null or left out. So wherever the
answer holds something, the value holds something of the same shape.

* `Json.at?` is the part of a value at a place, and `Json.shape` tells null, scalars, arrays of each
  length and objects apart;
* `Primitive.check_eq_or_scalar`: a type check answers its value or turns a scalar into another one;
* `Json.NarrowsBy` compares an answer with its value, place by place, and a `Json.Keeping` says what
  an answer may make of a part of its value;
* `Json.Keeping.narrows_descent`: so chains answer values that narrow theirs, and `Json.Narrows` is
  the case in which only the shape is kept.
-/

import Schemata.Proofs.Evaluation.Answer

namespace Schemata

namespace Json

/-! ### Places -/

/-- What is next to a value in one step. -/
def child? : Segment → Json → Option Json
  | .key name, .object members => Dictionary.find? name members
  | .index position, .array items => items[position]?
  | _, _ => none

/-- **The part of a value at a place.** -/
def at? : List Segment → Json → Option Json
  | [], value => some value
  | segment :: rest, value => (child? segment value).bind (at? rest)

theorem at?_cons (segment : Segment) (rest : List Segment) (value : Json) :
    at? (segment :: rest) value = (child? segment value).bind (at? rest) := rfl

/-! ### Shapes -/

/-- The shape of a value: what it is apart from its content. -/
inductive Shape where
  | null
  | scalar
  | array (length : Nat)
  | object
deriving DecidableEq, Repr

/-- **The shape of a value.** -/
def shape : Json → Shape
  | .null => .null
  | .bool _ | .number _ | .string _ => .scalar
  | .array items => .array items.length
  | .object _ => .object

/-- Whether a shape has nothing inside. -/
def Shape.IsLeaf (shape : Shape) : Prop :=
  shape = .scalar ∨ shape = .null

theorem shape_eq_null {value : Json} (null : value.shape = .null) : value = .null := by
  cases value <;> first | rfl | cases null

theorem child?_of_isLeaf {value : Json} (leaf : value.shape.IsLeaf) (segment : Segment) :
    value.child? segment = none := by
  cases value with
  | array | object => rcases leaf with leaf | leaf <;> cases leaf
  | null | bool | number | string => cases segment <;> rfl

/-- The only part of a leaf is the leaf. -/
theorem at?_of_isLeaf {value part : Json} {place : List Segment} (leaf : value.shape.IsLeaf)
    (found : value.at? place = some part) : place = [] ∧ part = value := by
  cases place with
  | nil => exact ⟨rfl, (Option.some.inj found).symm⟩
  | cons segment rest =>
      rw [at?_cons, child?_of_isLeaf leaf] at found
      cases found

/-! ### Coercions -/

theorem shape_ofInt (value : Int) : (ofInt value).shape.IsLeaf := by
  unfold ofInt
  split
  · exact .inl rfl
  · split
    · exact .inl rfl
    · exact .inr rfl

theorem shape_ofDatum (datum : Binary64.Datum) : (ofDatum datum).shape.IsLeaf := by
  unfold ofDatum
  split
  · split
    · exact shape_ofInt _
    · exact .inl rfl
  · exact .inr rfl

end Json

/-- **A type check answers its value, or turns a scalar into another one.** -/
theorem Primitive.check_eq_or_scalar {primitive : Primitive} {value result : Json}
    (checks : primitive.check value = some result) :
    result = value ∨ (value.shape = .scalar ∧ result.shape.IsLeaf) := by
  cases primitive with
  | number =>
      cases value with
      | number n => exact .inl (Option.some.inj checks).symm
      | bool flag =>
          simp only [check, Check.number, Option.some.injEq] at checks
          exact .inr ⟨rfl, checks ▸ Json.shape_ofInt _⟩
      | string text =>
          simp only [check, Check.number, Option.bind_eq_bind, Option.bind_eq_some_iff,
            Option.some.injEq] at checks
          obtain ⟨datum, -, x, -, rfl⟩ := checks
          exact .inr ⟨rfl, Json.shape_ofDatum _⟩
      | null | array | object => cases checks
  | string =>
      cases value with
      | string text => exact .inl (Option.some.inj checks).symm
      | _ => cases checks
  | boolean =>
      refine .inr ⟨?_, ?_⟩
      · cases value with
        | bool | number | string => rfl
        | null | array | object => cases checks
      · obtain ⟨flag, rfl⟩ : ∃ flag, result = .bool flag := by
          cases value <;> simp only [check, Check.boolean, reduceCtorEq] at checks
          all_goals grind
        exact .inl rfl
  | integer =>
      cases value with
      | number n =>
          refine .inl ?_
          cases n with
          | integer n => exact (Option.some.inj checks).symm
          | float x =>
              simp only [check, Check.integer] at checks
              split at checks
              · exact (Option.some.inj checks).symm
              · cases checks
      | _ => cases checks
  | date =>
      cases value with
      | number n =>
          obtain ⟨x, -, rfl⟩ := Option.map_eq_some_iff.mp checks
          exact .inr ⟨rfl, Json.shape_ofDatum _⟩
      | string text =>
          obtain ⟨instant, -, rfl⟩ := Option.map_eq_some_iff.mp checks
          exact .inr ⟨rfl, Json.shape_ofInt _⟩
      | _ => cases checks
  | empty =>
      simp only [check] at checks
      split at checks
      · exact .inl (Option.some.inj checks).symm
      · cases checks

/-! ### Narrowing -/

namespace Json

/-- **An answer holds no more than a value**: wherever it holds something, the value holds something
too, which is kept in it. -/
def NarrowsBy (keeps : Json → Json → Prop) (answer value : Json) : Prop :=
  ∀ place part, answer.at? place = some part → part ≠ .null →
    ∃ original, value.at? place = some original ∧ keeps original part

/-- **How a part of a value may be kept in an answer**: as it is, as a check brings it to its type,
or as a container of the same shape. -/
structure Keeping (keeps : Json → Json → Prop) : Prop where
  refl : ∀ value, keeps value value
  trans : ∀ {first middle last}, keeps first middle → keeps middle last → keeps first last
  shape : ∀ {original part}, keeps original part → original.shape = part.shape
  check : ∀ {primitive : Primitive} {value result}, primitive.check value = some result →
    result ≠ .null → keeps value result
  array : ∀ {items answers : List Json}, items.length = answers.length →
    keeps (.array items) (.array answers)
  object : ∀ members answers, keeps (.object members) (.object answers)

namespace NarrowsBy

theorem null (keeps : Json → Json → Prop) (value : Json) : Json.null.NarrowsBy keeps value := by
  intro place part found filled
  exact absurd (at?_of_isLeaf (.inr rfl) found).2 filled

variable {keeps : Json → Json → Prop} (keeping : Keeping keeps)
include keeping

theorem refl (value : Json) : value.NarrowsBy keeps value :=
  fun _ part found _ => ⟨part, found, keeping.refl part⟩

theorem trans {last middle first : Json} (later : last.NarrowsBy keeps middle)
    (earlier : middle.NarrowsBy keeps first) : last.NarrowsBy keeps first := by
  intro place part found filled
  obtain ⟨between, foundBetween, keptLater⟩ := later place part found filled
  have filledBetween : between ≠ .null := by
    rintro rfl
    exact filled (shape_eq_null (keeping.shape keptLater).symm)
  obtain ⟨original, foundFirst, keptEarlier⟩ := earlier place between foundBetween filledBetween
  exact ⟨original, foundFirst, keeping.trans keptEarlier keptLater⟩

/-- What a type check answers is kept as a whole, or as a scalar. -/
theorem check {primitive : Primitive} {value result : Json}
    (checks : primitive.check value = some result) : result.NarrowsBy keeps value := by
  rcases Primitive.check_eq_or_scalar checks with rfl | ⟨-, leaf⟩
  · exact refl keeping result
  · intro place part found filled
    obtain ⟨rfl, rfl⟩ := at?_of_isLeaf leaf found
    exact ⟨value, rfl, keeping.check checks filled⟩

/-- What is found in a part that narrows another one, or null, is found in that one. -/
theorem at?_bind {answer : Json} {held : Option Json} {place : List Segment} {part : Json}
    (narrows : answer.NarrowsBy keeps (held.getD .null)) (found : answer.at? place = some part)
    (filled : part ≠ .null) :
    ∃ original, held.bind (at? place) = some original ∧ keeps original part := by
  obtain ⟨original, foundHeld, kept⟩ := narrows place part found filled
  cases held with
  | some value => exact ⟨original, foundHeld, kept⟩
  | none =>
      obtain ⟨-, rfl⟩ := at?_of_isLeaf (.inr rfl) foundHeld
      exact absurd (shape_eq_null (keeping.shape kept).symm) filled

theorem object {answers members : Dictionary Json}
    (each : ∀ name answer, (name, answer) ∈ answers →
      answer.NarrowsBy keeps ((Dictionary.find? name members).getD .null)) :
    (Json.object answers).NarrowsBy keeps (.object members) := by
  intro place part found filled
  cases place with
  | nil =>
      cases found
      exact ⟨_, rfl, keeping.object members answers⟩
  | cons segment rest =>
      obtain ⟨answer, foundChild, foundPart⟩ := Option.bind_eq_some_iff.mp found
      cases segment with
      | key name =>
          have narrows := each name answer (Dictionary.mem_of_find? foundChild)
          exact at?_bind keeping narrows foundPart filled
      | index position => cases foundChild

theorem array {answers items : List Json} (each : List.Forall₂ (NarrowsBy keeps) answers items) :
    (Json.array answers).NarrowsBy keeps (.array items) := by
  intro place part found filled
  cases place with
  | nil =>
      cases found
      exact ⟨_, rfl, keeping.array each.length_eq.symm⟩
  | cons segment rest =>
      obtain ⟨answer, foundChild, foundPart⟩ := Option.bind_eq_some_iff.mp found
      cases segment with
      | key name => cases foundChild
      | index position =>
          obtain ⟨within, rfl⟩ := List.getElem?_eq_some_iff.mp foundChild
          have withinItems : position < items.length := each.length_eq ▸ within
          have narrows : answers[position].NarrowsBy keeps (items[position]?.getD .null) := by
            rw [List.getElem?_eq_getElem withinItems]
            exact each.get within withinItems
          exact at?_bind keeping narrows foundPart filled

end NarrowsBy

/-- **Answers narrow their values**, however their parts are kept. -/
theorem Keeping.narrows_descent {keeps : Json → Json → Prop} (keeping : Keeping keeps) :
    Descent (NarrowsBy keeps) where
  refl := NarrowsBy.refl keeping
  trans := NarrowsBy.trans keeping
  null := NarrowsBy.null keeps
  check := NarrowsBy.check keeping
  array := NarrowsBy.array keeping
  object := NarrowsBy.object keeping

/-! ### Narrowing by the shape -/

/-- **An answer has the shape of a value** wherever it holds something. -/
def Narrows (answer value : Json) : Prop :=
  ∀ place part, answer.at? place = some part → part ≠ .null →
    ∃ original, value.at? place = some original ∧ original.shape = part.shape

/-- A check that does not answer null keeps the shape. -/
theorem shape_check {primitive : Primitive} {value result : Json}
    (checks : primitive.check value = some result) (filled : result ≠ .null) :
    value.shape = result.shape := by
  rcases Primitive.check_eq_or_scalar checks with rfl | ⟨scalar, same | absent⟩
  · rfl
  · exact scalar.trans same.symm
  · exact absurd (shape_eq_null absent) filled

theorem shape_keeping : Keeping fun original part => original.shape = part.shape where
  refl _ := rfl
  trans := Eq.trans
  shape := id
  check := shape_check
  array := congrArg Shape.array
  object _ _ := rfl

theorem Narrows.refl (value : Json) : value.Narrows value :=
  NarrowsBy.refl shape_keeping value

theorem Narrows.trans {last middle first : Json} (later : last.Narrows middle)
    (earlier : middle.Narrows first) : last.Narrows first :=
  NarrowsBy.trans shape_keeping later earlier

/-- **Answers narrow their values.** -/
theorem narrows_descent : Descent Narrows :=
  shape_keeping.narrows_descent

end Json

end Schemata
