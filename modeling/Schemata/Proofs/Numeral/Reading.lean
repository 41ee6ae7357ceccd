/-
**Numerals are read as they are written.**

* `Numeral.decimal` is the rational number that a numeral of the schema language writes;
* `Numeral.real?_numberText`: such a numeral is read as the decimal that it is written as, so
  `Numeral.IsNumeral.rangesAs`: as a finite datum just if the number is below the limit in size;
* `Numeral.real?_toString`: the text of an integer is read as the integer.
-/

import Schemata.Proofs.Language.Spelling
import Schemata.Proofs.Numeral.Range

namespace Schemata

/-! ### Numerals -/

namespace Numeral

variable {digits decimals : List Char}

/-- Digits do not start with a sign, and they are no word. -/
theorem isDigits_spec (whole : isDigits digits = true) :
    ∃ first more, digits = first :: more ∧ first.isDigit = true := by
  obtain ⟨some, all⟩ := Bool.and_eq_true_iff.mp whole
  cases digits with
  | nil => cases some
  | cons first more => exact ⟨first, more, rfl, (Bool.and_eq_true_iff.mp all).1⟩

/-- **Digits and decimals are read as one decimal.** -/
theorem unsignedReal?_digits (negative : Bool) (whole : isDigits digits = true)
    (fraction : decimals.all Char.isDigit = true) :
    unsignedReal? negative (digits ++ if decimals = [] then [] else '.' :: decimals) =
      some (.ofDecimal negative (digitsValue (digits ++ decimals)) (-decimals.length)) := by
  obtain ⟨some, all⟩ := Bool.and_eq_true_iff.mp whole
  have nonempty : digits.isEmpty = false := (Bool.not_eq_true' _).mp some
  obtain ⟨taken, dropped⟩ := LexicalUnit.takeWhile_of_all (List.all_eq_true.mp all)
  obtain ⟨takenMore, droppedMore⟩ := LexicalUnit.takeWhile_of_all (List.all_eq_true.mp fraction)
  unfold unsignedReal?
  split
  · rename_i none
    subst none
    simp [taken, dropped, exponent?, nonempty]
  · have stops : ('.' :: decimals).takeWhile Char.isDigit = [] := rfl
    have stays : ('.' :: decimals).dropWhile Char.isDigit = '.' :: decimals := rfl
    rw [List.takeWhile_append_of_pos (List.all_eq_true.mp all),
      List.dropWhile_append_of_pos (List.all_eq_true.mp all), stops, stays, List.append_nil]
    simp [takenMore, droppedMore, exponent?, nonempty]

/-- **The rational number that a numeral writes**, with its sign and its decimals. -/
def decimal (text : String) : ℚ :=
  let (negative, rest) := splitSign text.toList
  let decimals := (rest.dropWhile Char.isDigit).drop 1
  (if negative then -1 else 1) *
    (digitsValue (rest.takeWhile Char.isDigit ++ decimals) / 10 ^ decimals.length)

/-- The sign of a numeral stands in front of it. -/
theorem splitSign_numberText (negative : Bool) (whole : isDigits digits = true) :
    splitSign (WrittenUnit.numberText negative digits decimals) =
      (negative, digits ++ if decimals = [] then [] else '.' :: decimals) := by
  obtain ⟨first, more, rfl, digit⟩ := isDigits_spec whole
  cases negative with
  | true => rfl
  | false =>
      rw [WrittenUnit.numberText, if_neg Bool.false_ne_true, List.nil_append,
        List.cons_append, splitSign]
      · rintro _ ⟨⟩
        cases digit
      · rintro _ ⟨⟩
        cases digit

/-- **A numeral is read as the decimal that it is written as.** -/
theorem real?_numberText (negative : Bool) (whole : isDigits digits = true)
    (fraction : decimals.all Char.isDigit = true) :
    real? (String.ofList (WrittenUnit.numberText negative digits decimals)) =
      some (.ofDecimal negative (digitsValue (digits ++ decimals)) (-decimals.length)) := by
  have sign := @splitSign_numberText _ decimals negative whole
  have read := unsignedReal?_digits negative whole fraction
  obtain ⟨first, more, rfl, digit⟩ := isDigits_spec whole
  -- A word starts with a letter.
  have word : ∀ letter : Char, letter.isDigit = false → ∀ letters tail : List Char,
      String.ofList ((first :: more ++ tail).map Char.toLower) ≠
        String.ofList (letter :: letters) := by
    intro letter noDigit letters tail same
    have lowered : first.toLower = letter := (List.cons.inj (String.ofList_injective same)).1
    have upper : ¬ first.isUpper = true := by
      grind [Char.isDigit, Char.isUpper]
    rw [Char.toLower_eq_of_not_isUpper upper] at lowered
    rw [lowered, noDigit] at digit
    cases digit
  unfold real?
  rw [String.toList_ofList, sign]
  dsimp only
  rw [if_neg
    (not_or.mpr ⟨word 'i' rfl ['n', 'f'] _, word 'i' rfl ['n', 'f', 'i', 'n', 'i', 't', 'y'] _⟩),
    if_neg (word 'n' rfl ['a', 'n'] _), read]

/-- A numeral writes its digits, and the decimals behind the point. -/
theorem decimal_numberText (negative : Bool) (whole : isDigits digits = true) :
    decimal (String.ofList (WrittenUnit.numberText negative digits decimals)) =
      (if negative then -1 else 1) * (digitsValue (digits ++ decimals) / 10 ^ decimals.length) := by
  have all := List.all_eq_true.mp (Bool.and_eq_true_iff.mp whole).2
  have stops : ∀ c ∈ (if decimals = [] then [] else '.' :: decimals).head?, c.isDigit = false := by
    split <;> rintro c ⟨⟩
    rfl
  have behind : (if decimals = [] then [] else '.' :: decimals).drop 1 = decimals := by
    split
    · rename_i none
      exact none.symm
    · rfl
  obtain ⟨taken, dropped⟩ := LexicalUnit.takeWhile_of_all all
  unfold decimal
  rw [String.toList_ofList, splitSign_numberText negative whole]
  dsimp only
  rw [LexicalUnit.takeWhile_append stops, LexicalUnit.dropWhile_append stops, taken, dropped,
    List.nil_append, behind]

/-- **A text is a numeral**: digits, perhaps with a minus in front, and with a point and decimals
behind. -/
def IsNumeral (text : String) : Prop :=
  ∃ negative digits decimals, isDigits digits = true ∧ decimals.all Char.isDigit = true ∧
    text = String.ofList (WrittenUnit.numberText negative digits decimals)

/-- **A numeral is read as a finite datum just if the number that it writes is below the limit in
size**, and as an infinity otherwise. -/
theorem IsNumeral.rangesAs {text : String} (isNumeral : IsNumeral text) :
    ∃ datum negative, real? text = some datum ∧ datum.RangesAs negative |decimal text| := by
  obtain ⟨negative, digits, decimals, whole, fraction, rfl⟩ := isNumeral
  refine ⟨_, negative, real?_numberText negative whole fraction, ?_⟩
  have size : |decimal (String.ofList (WrittenUnit.numberText negative digits decimals))| =
      digitsValue (digits ++ decimals) * 10 ^ (-(decimals.length : Int)) := by
    have quotient : (0 : ℚ) ≤ digitsValue (digits ++ decimals) / 10 ^ decimals.length := by
      positivity
    rw [decimal_numberText negative whole, abs_mul, abs_of_nonneg quotient, zpow_neg, zpow_natCast,
      div_eq_mul_inv]
    cases negative <;> simp
  rw [size]
  exact Binary64.Datum.ofDecimal_rangesAs negative _ _

/-- The text of an integer is a numeral without decimals. -/
theorem toString_eq_numberText (value : Int) :
    toString value =
      String.ofList (WrittenUnit.numberText (value < 0) (Nat.toDigits 10 value.natAbs) []) := by
  rw [← String.toList_inj, String.toList_ofList]
  cases value with
  | ofNat size =>
      have positive : ¬ Int.ofNat size < 0 := by simp
      simp only [WrittenUnit.numberText, positive, decide_false, Bool.false_eq_true,
        if_false, if_true, List.nil_append, List.append_nil]
      exact toList_toString size
  | negSucc size =>
      simp only [WrittenUnit.numberText, Int.negSucc_lt_zero, decide_true, if_true, List.append_nil]
      show ("-" ++ toString (size + 1)).toList = _
      rw [String.toList_append, toList_toString]
      rfl

/-- **The text of an integer is read as the integer.** -/
theorem real?_toString (value : Int) :
    real? (toString value) = some (.ofDecimal (value < 0) value.natAbs 0) := by
  rw [toString_eq_numberText, real?_numberText _ (isDigits_toDigits _) rfl, List.append_nil,
    digitsValue_toDigits]
  rfl

end Numeral

end Schemata
