/-
**What the coercing checks make of integers.**

A JSON integer is a number as it is. Its text, and the instant that it stands for, go through the
nearest binary64 number, so both become the integer rounded to fifty-three bits.

* `Unicode.trim_spaced`: white space around a text is trimmed;
* `Numeral.real?_trim_integer`: the text of an integer is read as the datum nearest to it;
* `Json.Number.Rounds`: a number is what an integer is rounded to;
* `Json.Integer.coerced`: the text of an integer as a number, and the integer as an instant, are
  both rounded.
-/

import Schemata.Proofs.Evaluation.Relations
import Schemata.Proofs.Numeral.Integral
import Schemata.Proofs.Numeral.Range
import Schemata.Proofs.Numeral.Reading

namespace Schemata

/-! ### White space -/

namespace Unicode

/-- **White space around a text is trimmed**, if there is none in the text. -/
theorem trim_spaced {before text behind : List Char} (blankBefore : ∀ c ∈ before, isBlank c = true)
    (blankBehind : ∀ c ∈ behind, isBlank c = true) (solid : ∀ c ∈ text, isBlank c = false) :
    trim (String.ofList (before ++ text ++ behind)) = String.ofList text := by
  have stays : ∀ {part : List Char}, (∀ c ∈ part, isBlank c = false) →
      part.dropWhile isBlank = part := by
    intro part solid
    cases part with
    | nil => rfl
    | cons c more => exact List.dropWhile_cons_of_neg (by simp [solid c List.mem_cons_self])
  have blankReverse : ∀ c ∈ behind.reverse, isBlank c = true :=
    fun c member => blankBehind c (List.mem_reverse.mp member)
  have solidReverse : ∀ c ∈ text.reverse, isBlank c = false :=
    fun c member => solid c (List.mem_reverse.mp member)
  rw [trim, String.toList_ofList, List.append_assoc, List.dropWhile_append_of_pos blankBefore,
    List.dropWhile_append, stays solid]
  split
  · rename_i empty
    rw [List.dropWhile_eq_nil_iff.mpr blankBehind, List.isEmpty_iff.mp empty]
    rfl
  · rw [List.reverse_append, List.dropWhile_append_of_pos blankReverse, stays solidReverse,
      List.reverse_reverse]

end Unicode

/-! ### Texts of integers -/

namespace Numeral

/-- The text of an integer has no white space in it. -/
theorem isBlank_of_mem_toString {value : Int} :
    ∀ c ∈ (toString value).toList, Unicode.isBlank c = false := by
  have digits : ∀ c ∈ Nat.toDigits 10 value.natAbs, Unicode.isBlank c = false := by
    intro c member
    have digit := Nat.isDigit_of_mem_toDigits (by decide) (by decide) member
    rw [Bool.eq_false_iff]
    intro blank
    simp only [Unicode.isBlank, Unicode.blankRanges, List.any_cons, List.any_nil, Bool.or_false,
      Bool.or_eq_true, Bool.and_eq_true, decide_eq_true_eq] at blank
    rw [Char.isDigit, Bool.and_eq_true, decide_eq_true_eq, decide_eq_true_eq] at digit
    have least : 48 ≤ c.toNat := digit.1
    have most : c.toNat ≤ 57 := digit.2
    omega
  rw [toString_eq_numberText, String.toList_ofList, WrittenUnit.numberText, if_pos rfl,
    List.append_nil]
  refine List.forall_mem_append.mpr ⟨fun c member => ?_, digits⟩
  split_ifs at member
  · rw [List.mem_singleton.mp member]
    rfl
  · cases member

/-- **The text of a JSON integer is read as the datum nearest to the integer**, with any white space
around it. -/
theorem real?_trim_integer (n : Json.Integer) {before behind : List Char}
    (blankBefore : ∀ c ∈ before, Unicode.isBlank c = true)
    (blankBehind : ∀ c ∈ behind, Unicode.isBlank c = true) :
    real? (Unicode.trim (String.ofList (before ++ (toString n.value).toList ++ behind))) =
      some (.ofInt n.value) := by
  have few : (Nat.toDigits 10 n.value.natAbs).length ≤ 20 := by
    rw [Nat.length_toDigits_le_iff (by decide) (by decide)]
    obtain ⟨least, most⟩ := n.fits
    rw [Nat.pow_eq] at least most
    omega
  rw [Unicode.trim_spaced blankBefore blankBehind isBlank_of_mem_toString, String.ofList_toList,
    real?_toString, Binary64.Datum.ofDecimal_zero _ (few.trans (by decide))]
  rfl

end Numeral

/-! ### Integers that are rounded -/

namespace Json

/-- **A number is what an integer is rounded to**: it denotes the integer rounded to fifty-three
bits, and it is an integer itself just below `2 ^ 53` in size. It denotes the integer as it is just
if that has no more than fifty-three significant bits. -/
structure Number.Rounds (number : Number) (value : Int) : Prop where
  toRat : number.toRat = Binary64.roundInt value
  isInteger : number.isInteger = true ↔ value.natAbs < 2 ^ 53
  exact_iff : number.toRat = value ↔ Binary64.unit value.natAbs ∣ value.natAbs
  exact_of_le : value.natAbs ≤ 2 ^ 53 → number.toRat = value

/-- What the nearest datum of an integer becomes is what the integer is rounded to. -/
theorem Becomes.rounds {number : Number} {value : Int}
    (becomes : Becomes (Binary64.roundInt value) number) :
    number.Rounds value where
  toRat := becomes.toRat
  isInteger := by
    rw [becomes.isInteger, ← Binary64.natAbs_roundInt_lt_iff]
    constructor
    · rintro ⟨whole, same, small⟩
      rwa [Int.cast_inj.mp same]
    · exact fun small => ⟨_, rfl, small⟩
  exact_iff := by rw [becomes.toRat, Int.cast_inj, Binary64.roundInt_eq_iff]
  exact_of_le small := by rw [becomes.toRat, Binary64.roundInt_of_le small]

namespace Integer

/-- **An integer is rounded to a number**, by way of its nearest datum. -/
theorem exists_rounds (n : Integer) : ∃ x answer, Binary64.Datum.ofInt n.value = .finite x ∧
    ofDatum (.finite x) = .number answer ∧ answer.Rounds n.value := by
  obtain ⟨x, finite, denotes⟩ := n.denotes
  obtain ⟨answer, answers, becomes⟩ := ofDatum_denotes ⟨x, rfl, denotes⟩
  exact ⟨x, answer, finite, answers, becomes.rounds⟩

/-- **The checks that bring a value to a number, on an integer.** As a number it stays as it is. Its
text, with any white space around it, and the instant that it stands for, both become what it is
rounded to. -/
theorem coerced (n : Integer) {before behind : List Char}
    (blankBefore : ∀ c ∈ before, Unicode.isBlank c = true)
    (blankBehind : ∀ c ∈ behind, Unicode.isBlank c = true) :
    Check.number n.toJson = some n.toJson ∧ ∃ answer : Number, answer.Rounds n.value ∧
      Check.number (.string (String.ofList (before ++ (toString n.value).toList ++ behind))) =
        some (.number answer) ∧
      Check.date n.toJson = some (.number answer) := by
  obtain ⟨x, answer, finite, answers, rounds⟩ := n.exists_rounds
  refine ⟨rfl, answer, rounds, ?_, ?_⟩
  · rw [Check.number, Numeral.real?_trim_integer n blankBefore blankBehind, finite, ← answers]
    rfl
  · rw [toJson, Check.date, Number.datum, finite, ← answers]
    rfl

/-- An integer of fifty-four bits that ends in a zero stays as it is, with a blank in front of its
text and a line break behind. -/
theorem coerced_even : ∃ (n : Integer) (answer : Number), n.value = 2 ^ 53 + 2 ∧
    ((∀ c ∈ [' '], Unicode.isBlank c = true) ∧ ∀ c ∈ ['\n'], Unicode.isBlank c = true) ∧
    Check.number (.string " 9007199254740994\n") = some (.number answer) ∧
    Check.date n.toJson = some (.number answer) ∧ answer.isInteger = false ∧
    answer.toRat = n.value := by
  have blankBefore : ∀ c ∈ [' '], Unicode.isBlank c = true := List.forall_mem_singleton.mpr rfl
  have blankBehind : ∀ c ∈ ['\n'], Unicode.isBlank c = true := List.forall_mem_singleton.mpr rfl
  obtain ⟨-, answer, rounds, number, date⟩ :=
    coerced ⟨2 ^ 53 + 2, by decide⟩ blankBefore blankBehind
  refine ⟨_, answer, rfl, ⟨blankBefore, blankBehind⟩, number, date, ?_,
    rounds.exact_iff.mpr (by decide)⟩
  exact Bool.eq_false_iff.mpr (mt rounds.isInteger.mp (by decide))

/-- **An integer can become another one**: the least positive one that takes more than fifty-three
bits does, both as a text and as an instant. -/
theorem exists_coerced_apart : ∃ (n : Integer) (answer : Number), n.value = 2 ^ 53 + 1 ∧
    Check.number (.string "9007199254740993") = some (.number answer) ∧
    Check.date n.toJson = some (.number answer) ∧ answer.toRat = 2 ^ 53 ∧
    answer.toRat ≠ n.value := by
  obtain ⟨x, answer, finite, answers, rounds⟩ := exists_rounds ⟨2 ^ 53 + 1, by decide⟩
  have rounded : answer.toRat = 2 ^ 53 := by
    rw [rounds.toRat, show Binary64.roundInt (2 ^ 53 + 1) = 2 ^ 53 by decide]
    norm_num
  have spelled : "9007199254740993" =
      String.ofList ([] ++ (toString ((2 : Int) ^ 53 + 1)).toList ++ []) := rfl
  have text := Numeral.real?_trim_integer ⟨2 ^ 53 + 1, by decide⟩
    (List.forall_mem_nil _) (List.forall_mem_nil _)
  rw [← spelled] at text
  refine ⟨⟨2 ^ 53 + 1, by decide⟩, answer, rfl, ?_, ?_, rounded, mt rounds.exact_iff.mp (by decide)⟩
  · rw [Check.number, text, finite, ← answers]
    rfl
  · rw [toJson, Check.date, Number.datum, finite, ← answers]
    rfl

end Integer

end Json

end Schemata
