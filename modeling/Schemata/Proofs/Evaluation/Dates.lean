/-
**Instants are compared exactly.**

An instant that a text stands for is a safe integer, so it stays as it is when it is checked again,
and a date compares with the text of another one as the integers do.

* `Check.date_date`: what a value is as a date stays as it is;
* `Grammar.dateText` writes a date with a comparison behind it, and `Template.isChain_dateText` is
  its template;
* `Template.dates_exact`: instants are small, dates are settled, and the written comparison accepts
  the text of a date just if the integers are so related.
-/

import Schemata.Proofs.Calendar.Instants
import Schemata.Proofs.Compilation.Comparisons
import Schemata.Proofs.Evaluation.Relations
import Schemata.Proofs.Evaluation.Sequence
import Schemata.Proofs.Numeral.Integral

namespace Schemata

/-! ### Dates -/

namespace Check

/-- An instant stays as it is. -/
theorem date_ofInt {value : Int} (small : value.natAbs < 2 ^ 53) :
    date (.ofInt value) = some (.ofInt value) := by
  have denotes := Json.Integer.denotes ⟨value, Json.fits_of_safe small⟩
  rw [Binary64.roundInt_of_le small.le] at denotes
  have settled := Json.ofDatum_of_safe denotes small
  obtain ⟨x, finite, -⟩ := denotes
  rw [finite] at settled
  rw [Json.ofInt_of_safe small, date, finite, ← Json.ofInt_of_safe small, ← settled]
  rfl

/-- **What a value is as a date stays as it is** as a date. -/
theorem date_date {value settled : Json} (dated : date value = some settled) :
    date settled = some settled := by
  cases value with
  | number n =>
      obtain ⟨x, -, same⟩ := Option.map_eq_some_iff.mp dated
      obtain ⟨number, becomes, denotes⟩ := Json.ofDatum_denotes ⟨x, rfl, rfl⟩
      have again := Json.ofDatum_datum becomes
      obtain ⟨y, finite, -⟩ := denotes.datum
      rw [finite] at again
      rw [← same, becomes, date, finite, ← again]
      rfl
  | string text =>
      obtain ⟨instant, reads, rfl⟩ := Option.map_eq_some_iff.mp dated
      exact date_ofInt (Calendar.readInstant?_small reads)
  | _ => cases dated

/-- **An instant compares with the text of a date as the integers do**, and with no other text. -/
theorem compares_instant (relation : Relation) {instant : Int} (small : instant.natAbs < 2 ^ 53)
    (text : String) : compares relation (.ofInt instant) (.string text) = true ↔
      ∃ bound, Calendar.readInstant? text = some bound ∧ relation.between instant bound = true := by
  rw [Json.ofInt_of_safe small, compares, order?]
  cases reads : Calendar.readInstant? text with
  | none => simp
  | some bound =>
      have smallBound := Calendar.readInstant?_small reads
      have order := Json.Integer.compare?_datum ⟨instant, Json.fits_of_safe small⟩
        ⟨bound, Json.fits_of_safe smallBound⟩
      rw [Binary64.roundInt_of_le small.le, Binary64.roundInt_of_le smallBound.le] at order
      change (Json.Number.integer _).datum.compare? (Binary64.Datum.ofInt bound) = _ at order
      rw [Option.bind_eq_bind, Option.bind_some, order]
      simp [relation.holds_compare]

end Check

/-! ### The text of a date with a comparison -/

namespace Grammar

/-- **The text of a date with a comparison behind it**, to the text of another date. -/
def dateText (relation : Relation) (bound : String) : String :=
  "date" ++ " : " ++ comparisonText relation (quotedText bound)

/-- A date by itself is a chain. -/
theorem chainText_date : ChainText "date" [.validator (.mk "date" [] none)] :=
  chainText_of_parse (bind_eq_ok.mpr ⟨_, by cbv, rfl⟩)
    (by simp [Param.isSuffix, Invocation.isSuffix, Invocation.name])

end Grammar

namespace Template

/-- **The template of a date with a comparison behind it** checks one and then the other. -/
theorem isChain_dateText (relation : Relation) (bound : String) :
    IsChain (Grammar.dateText relation bound)
      [.primitive .date none, .comparison relation (.literal (.string bound)) none] := by
  have compares := (Grammar.operandText_quoted bound).chainText relation none
  rw [Grammar.tagText, String.append_empty] at compares
  obtain ⟨distance, whole⟩ := Grammar.chainText_date.sequence compares
  refine isChain_of_chainText whole ?_ rfl ?_
  · simp [Param.relocate, Invocation.relocate, Param.isSuffix, Invocation.isSuffix, Invocation.name]
  · have first : Param.compileChain [] [] [.validator (.mk "date" [] none)] =
        .ok [.primitive .date none] := rfl
    have second : Param.compileChain [] [] [.validator (.mk "compare"
        [.comparison ⟨relation, .text bound⟩] none)] =
          .ok [.comparison relation (.literal (.string bound)) none] := by
      rw [Param.compileChain, Param.compileOne, compile_compare rfl]
      rfl
    rw [← Param.relocateAll_eq_map]
    exact Param.compileChain_append first ((Param.compileChain_relocate _ _ _ _).trans second)

/-- A date with a comparison behind it accepts what is a date that is in the relation to the
bound. -/
theorem accepts?_dateText (relation : Relation) (bound : String) (bindings : Bindings)
    (value : Json) (known : Meta) :
    accepts? (Grammar.dateText relation bound) bindings value known =
      some ((Check.date value).any fun dated => Check.compares relation dated (.string bound)) := by
  obtain ⟨template, call, compiles, same⟩ :=
    (isChain_dateText relation bound).exists_validate_eq bindings
  rw [accepts?, compiles]
  show (template.validate bindings value known).map _ = _
  rw [same]
  show (((Primitive.date.validate bindings none).andThen
    ((Step.comparison relation (.literal (.string bound)) none).validate bindings call |>.andThen
      Validator.accept)) value known).map _ = _
  rw [Validator.andThen_accept, Validator.andThen, Primitive.validate, Primitive.check]
  cases Check.date value with
  | none => rfl
  | some settled =>
      rw [pure_bind]
      dsimp only
      rw [Step.validate, Bound.validateRelation, Run.known_bind_apply]
      exact ErrorTag.isSome_require _ _ _

/-- **Instants are exact.** Every instant that a text stands for is below `2 ^ 53` in size, and so
is a signed integer of sixty-four bits; what a value is as a date stays as it is; and a date with a
comparison behind it accepts a text just if both texts stand for instants that are so related as
integers. -/
theorem dates_exact :
    (∀ text instant, Calendar.readInstant? text = some instant →
      instant.natAbs < 2 ^ 53 ∧ -(2 : Int) ^ 63 ≤ instant ∧ instant < 2 ^ 63) ∧
    (∀ value dated, Check.date value = some dated → Check.date dated = some dated) ∧
    ∀ relation text bound bindings known, ∃ accepted,
      accepts? (Grammar.dateText relation bound) bindings (.string text) known = some accepted ∧
        (accepted = true ↔ ∃ instant other, Calendar.readInstant? text = some instant ∧
          Calendar.readInstant? bound = some other ∧ relation.between instant other = true) := by
  refine ⟨fun text instant reads => ?_, fun _ _ => Check.date_date,
    fun relation text bound bindings known => ?_⟩
  · have small := Calendar.readInstant?_small reads
    omega
  · refine ⟨_, accepts?_dateText relation bound bindings (.string text) known, ?_⟩
    cases reads : Calendar.readInstant? text with
    | none => simp [Check.date, reads]
    | some instant =>
        have small := Calendar.readInstant?_small reads
        simp [Check.date, reads, Check.compares_instant relation small]

/-- A leap day is before the midnight after it one zone to the east. -/
theorem dates_exact_leap_day : Calendar.readInstant? "2024-02-29" = some 1709164800000 ∧
    Calendar.readInstant? "2024-03-01T00:00:00+01:00" = some 1709247600000 ∧
    (1709164800000 : Int).natAbs < 2 ^ 53 ∧
    Check.date (.string "2024-02-29") = some (.ofInt 1709164800000) ∧
    Check.date (.ofInt 1709164800000) = some (.ofInt 1709164800000) ∧
    accepts? (Grammar.dateText .less "2024-03-01T00:00:00+01:00") .empty
      (.string "2024-02-29") .empty = some true := by
  have day : Calendar.readInstant? "2024-02-29" = some 1709164800000 := by cbv
  have midnight : Calendar.readInstant? "2024-03-01T00:00:00+01:00" = some 1709247600000 := by cbv
  obtain ⟨small, settled, compared⟩ := dates_exact
  have dated : Check.date (.string "2024-02-29") = some (.ofInt 1709164800000) := by
    rw [Check.date, day]
    rfl
  obtain ⟨accepted, accepts, holds⟩ :=
    compared .less "2024-02-29" "2024-03-01T00:00:00+01:00" .empty .empty
  have before : accepted = true := holds.mpr ⟨_, _, day, midnight, by decide⟩
  exact ⟨day, midnight, (small _ _ day).1, dated, settled _ _ dated, before ▸ accepts⟩

end Template

end Schemata
