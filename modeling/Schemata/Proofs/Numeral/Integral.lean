/-
**Binary64 numbers that are integers.**

A computed number becomes a JSON integer where it is one, and where all integers near it are told
apart. The JSON number denotes what the computed number denotes, whichever of the two it becomes.

* `Binary64.toInt?_eq_some_iff`: the integer of a binary64 number is what the number denotes;
* `Json.Number.toRat` is what a JSON number denotes;
* `Json.ofDatum_denotes`: a datum that denotes something becomes a JSON number that denotes the
  same;
* `Binary64.roundInt_eq_iff`: an integer stays as it is if it has no more than fifty-three
  significant bits.
-/

import Schemata.Proofs.Numeral.Rounding

namespace Schemata

namespace Binary64

/-! ### Integers that are rounded to themselves -/

theorem unit_dvd_roundNat (value : Nat) : unit value ∣ roundNat value :=
  Nat.dvd_mul_left _ _

/-- **An integer stays as it is just if it has no more than fifty-three significant bits**: no bit
behind the fifty-third is set. -/
theorem roundInt_eq_iff {value : Int} :
    roundInt value = value ↔ unit value.natAbs ∣ value.natAbs := by
  constructor
  · intro same
    have sizes : roundNat value.natAbs = value.natAbs := by
      rcases value.natAbs_eq with natural | negated
      · rwa [natural, roundInt_natCast, Int.ofNat_inj] at same
      · rwa [negated, roundInt_neg, roundInt_natCast, Int.neg_inj, Int.ofNat_inj] at same
    calc unit value.natAbs ∣ roundNat value.natAbs := unit_dvd_roundNat _
      _ = value.natAbs := sizes
  · intro divides
    rw [roundInt, roundNat_of_dvd divides, Int.sign_mul_natAbs]

/-- Integers below `2 ^ 53` in size are those that are rounded to integers below it. -/
theorem natAbs_roundInt_lt_iff {value : Int} :
    (roundInt value).natAbs < 2 ^ 53 ↔ value.natAbs < 2 ^ 53 := by
  constructor
  · contrapose!
    intro large
    have least : roundInt ((2 : Int) ^ 53) = 2 ^ 53 := by decide
    rcases value.natAbs_eq with natural | negated
    · have kept := roundInt_mono (show (2 : Int) ^ 53 ≤ value by omega)
      omega
    · have kept := roundInt_mono (show value ≤ -(2 : Int) ^ 53 by omega)
      rw [roundInt_neg] at kept
      omega
  · intro small
    rwa [roundInt_of_le small.le]

/-! ### The integer of a number -/

theorem natAbs_signed (x : Binary64) : x.signed.natAbs = x.mantissa := by
  unfold signed
  split <;> simp

/-- **The integer of a number is what the number denotes.** -/
theorem toInt?_eq_some_iff {x : Binary64} {value : Int} :
    x.toInt? = some value ↔ x.toRat = value := by
  rcases lt_or_ge x.exponent 0 with below | above
  · -- The number denotes the quotient of its mantissa by a power of two.
    have positive : (0 : ℚ) < 2 ^ (-x.exponent).toNat := by positivity
    have quotient : x.toRat = value ↔ x.signed = value * 2 ^ (-x.exponent).toNat := by
      have denotes : x.toRat * 2 ^ (-x.exponent).toNat = x.signed := by
        rw [toRat, mul_assoc, ← zpow_natCast, Int.toNat_of_nonneg (by omega),
          ← zpow_add₀ two_ne_zero, add_neg_cancel, zpow_zero, mul_one]
      rw [← mul_left_inj' positive.ne', denotes]
      exact_mod_cast Iff.rfl
    have divides : x.mantissa % Nat.pow 2 (-x.exponent).toNat = 0 ↔
        ((2 : Int) ^ (-x.exponent).toNat) ∣ x.signed := by
      rw [← Nat.dvd_iff_mod_eq_zero, ← Int.natAbs_dvd_natAbs, natAbs_signed, Int.natAbs_pow]
      rfl
    have scale : ((Nat.pow 2 (-x.exponent).toNat : Nat) : Int) = 2 ^ (-x.exponent).toNat := by
      rw [Nat.pow_eq]
      push_cast
      rfl
    have nonzero : (2 : Int) ^ (-x.exponent).toNat ≠ 0 := by positivity
    rw [quotient, toInt?, if_neg (by omega), scale]
    split_ifs with whole
    · rw [Option.some_inj, Int.ediv_eq_iff_eq_mul_left nonzero (divides.mp whole)]
    · exact iff_of_false not_false
        fun same => whole (divides.mpr (same ▸ Int.dvd_mul_left _ _))
  · have denotes : x.toRat = ((x.signed * Nat.pow 2 x.exponent.toNat : Int) : ℚ) := by
      have scaled := x.toRat_eq_scaled above
      rwa [sub_zero, zpow_zero, mul_one] at scaled
    rw [denotes, toInt?, if_pos above, Option.some_inj, Int.cast_inj]

/-- **The safe integer of a number is what the number denotes**, if it is below `2 ^ 53` in size. -/
theorem safeInt?_eq_some_iff {x : Binary64} {value : Int} :
    x.safeInt? = some value ↔ x.toRat = value ∧ value.natAbs < 2 ^ 53 := by
  rw [safeInt?, Option.filter_eq_some_iff, toInt?_eq_some_iff, decide_eq_true_eq]
  rfl

/-- A number without a safe integer denotes none. -/
theorem safeInt?_eq_none_iff {x : Binary64} :
    x.safeInt? = none ↔ ∀ value : Int, value.natAbs < 2 ^ 53 → x.toRat ≠ value := by
  rw [Option.eq_none_iff_forall_ne_some]
  simp only [ne_eq, safeInt?_eq_some_iff, not_and]
  exact forall_congr' fun value => imp_not_comm

end Binary64

namespace Json

open Binary64 (Datum roundInt)

/-! ### JSON numbers -/

/-- **The rational number that a JSON number denotes.** -/
def Number.toRat : Number → ℚ
  | integer n => n.value
  | float x => x.toRat

/-- Whether a JSON number is an integer. -/
def Number.isInteger : Number → Bool
  | integer _ => true
  | float _ => false

/-- Integers below `2 ^ 53` in size fit. -/
theorem fits_of_safe {value : Int} (small : value.natAbs < 2 ^ 53) : Fits value := by
  unfold Fits
  rw [Nat.pow_eq, Nat.pow_eq]
  omega

/-- An integer below `2 ^ 53` in size is a JSON integer. -/
theorem ofInt_of_safe {value : Int} (small : value.natAbs < 2 ^ 53) :
    ofInt value = .number (.integer ⟨value, fits_of_safe small⟩) :=
  dif_pos _

/-- **A JSON number that a datum becomes**: it denotes the same, by itself and by the nearest datum,
and it is an integer just if it denotes one below `2 ^ 53` in size. -/
structure Becomes (value : ℚ) (number : Number) : Prop where
  toRat : number.toRat = value
  datum : number.datum.Denotes value
  isInteger : number.isInteger = true ↔ ∃ whole : Int, value = whole ∧ whole.natAbs < 2 ^ 53

/-- **A datum that denotes a rational number becomes a JSON number that denotes it.** -/
theorem ofDatum_denotes {datum : Datum} {value : ℚ} (denotes : datum.Denotes value) :
    ∃ number, ofDatum datum = .number number ∧ Becomes value number := by
  obtain ⟨x, rfl, rfl⟩ := denotes
  cases safe : x.safeInt? with
  | some whole =>
      obtain ⟨same, small⟩ := Binary64.safeInt?_eq_some_iff.mp safe
      have rounded : (Number.integer ⟨whole, fits_of_safe small⟩).datum.Denotes (roundInt whole) :=
        Integer.denotes _
      rw [Binary64.roundInt_of_le small.le, ← same] at rounded
      refine ⟨.integer ⟨whole, fits_of_safe small⟩, ?_, same.symm, rounded, fun _ =>
        ⟨whole, same, small⟩, fun _ => rfl⟩
      rw [ofDatum, safe]
      exact ofInt_of_safe small
  | none =>
      refine ⟨.float x, by rw [ofDatum, safe], rfl, ⟨x, rfl, rfl⟩, nofun, ?_⟩
      rintro ⟨whole, same, small⟩
      exact absurd same (Binary64.safeInt?_eq_none_iff.mp safe whole small)

/-- A datum that denotes an integer below `2 ^ 53` in size becomes that integer. -/
theorem ofDatum_of_safe {datum : Datum} {value : Int} (denotes : datum.Denotes value)
    (small : value.natAbs < 2 ^ 53) : ofDatum datum = ofInt value := by
  obtain ⟨x, rfl, same⟩ := denotes
  rw [ofDatum, Binary64.safeInt?_eq_some_iff.mpr ⟨same, small⟩]

/-- **A JSON number that a number has become stays as it is** when its datum becomes one again. -/
theorem ofDatum_datum {x : Binary64} {number : Number}
    (becomes : ofDatum (.finite x) = .number number) :
    ofDatum number.datum = .number number := by
  cases safe : x.safeInt? with
  | some whole =>
      obtain ⟨-, small⟩ := Binary64.safeInt?_eq_some_iff.mp safe
      rw [ofDatum, safe] at becomes
      have same := (ofInt_of_safe small).symm.trans becomes
      cases same
      have denotes := Integer.denotes ⟨whole, fits_of_safe small⟩
      rw [Binary64.roundInt_of_le small.le] at denotes
      rw [ofDatum_of_safe denotes small, ofInt_of_safe small]
  | none =>
      rw [ofDatum, safe] at becomes
      cases becomes
      rw [Number.datum, ofDatum, safe]

end Json

end Schemata
