/-
**Integers as binary64 numbers.**

A binary64 number denotes a rational number, and two of them compare as what they denote. The number
nearest to an integer denotes the integer rounded to fifty-three bits:

* `Binary64.divideToEven_mono`: dividing to the nearest keeps the order;
* `Binary64.roundInt` rounds an integer, `Binary64.roundInt_mono` says that the order is kept, and
  `Binary64.roundInt_of_le` that integers up to `2 ^ 53` in size stay as they are;
* `Json.Integer.denotes`: the datum of a JSON integer denotes the rounded integer;
* `Json.Integer.compare?_datum`: so integers compare as they are rounded.
-/

import Mathlib
import Schemata.Json.Value

namespace Schemata

namespace Binary64

/-! ### Denotations -/

/-- **The rational number that a binary64 number denotes.** -/
def toRat (x : Binary64) : ℚ :=
  x.signed * 2 ^ x.exponent

/-- A mantissa with more bits denotes the same by a smaller exponent. -/
theorem toRat_eq_scaled (x : Binary64) {low : Int} (below : low ≤ x.exponent) :
    x.toRat = ((x.signed * Nat.pow 2 (x.exponent - low).toNat : Int) : ℚ) * 2 ^ low := by
  have raised : (2 : ℚ) ^ x.exponent = 2 ^ (x.exponent - low).toNat * 2 ^ low := by
    rw [← zpow_natCast, ← zpow_add₀ two_ne_zero, Int.toNat_of_nonneg (Int.sub_nonneg_of_le below),
      Int.sub_add_cancel]
  rw [toRat, raised, Nat.pow_eq]
  push_cast
  ring

/-- **Binary64 numbers compare as what they denote.** -/
theorem compare_eq_compare_toRat (x y : Binary64) : x.compare y = Ord.compare x.toRat y.toRat := by
  have positive : (0 : ℚ) < 2 ^ min x.exponent y.exponent := zpow_pos two_pos _
  rw [x.toRat_eq_scaled (min_le_left _ y.exponent), y.toRat_eq_scaled (min_le_right x.exponent _),
    ← cmp_eq_compare, cmp_mul_pos_right positive, Int.cast_strictMono.cmp_map_eq, cmp_eq_compare]
  rfl

/-- **A datum denotes a rational number.** -/
def Datum.Denotes (datum : Datum) (value : ℚ) : Prop :=
  ∃ x, datum = .finite x ∧ x.toRat = value

theorem Datum.Denotes.compare? {first second : Datum} {value bound : ℚ} (left : first.Denotes value)
    (right : second.Denotes bound) : first.compare? second = some (Ord.compare value bound) := by
  obtain ⟨x, rfl, rfl⟩ := left
  obtain ⟨y, rfl, rfl⟩ := right
  rw [Datum.compare?, compare_eq_compare_toRat]

/-- A canonical form denotes what it says. -/
theorem Datum.ofParts_denotes (negative : Bool) {mantissa : Nat} {exponent : Int}
    (canonical : Canonical mantissa exponent) :
    (ofParts negative mantissa exponent).Denotes
      ((if negative then -1 else 1) * (mantissa * 2 ^ exponent)) := by
  refine ⟨_, dif_pos canonical, ?_⟩
  cases negative <;> simp [toRat, signed]

/-! ### Division to the nearest -/

section Division

variable {numerator other denominator : Nat}

theorem divideToEven_one (numerator : Nat) : divideToEven numerator 1 = numerator := by
  simp [divideToEven, Nat.mod_one]

/-- A quotient without remainder is what it is. -/
theorem divideToEven_mul (quotient : Nat) (positive : 0 < denominator) :
    divideToEven (quotient * denominator) denominator = quotient := by
  simp [divideToEven, Nat.mul_div_cancel _ positive, positive]

/-- Division goes to one of the two neighbours. -/
theorem div_le_divideToEven (numerator denominator : Nat) :
    numerator / denominator ≤ divideToEven numerator denominator ∧
      divideToEven numerator denominator ≤ numerator / denominator + 1 := by
  unfold divideToEven
  dsimp only
  split_ifs <;> omega

/-- **Division to the nearest keeps the order.** -/
theorem divideToEven_mono (below : numerator ≤ other) :
    divideToEven numerator denominator ≤ divideToEven other denominator := by
  have quotients := Nat.div_le_div_right (c := denominator) below
  rcases Nat.lt_or_eq_of_le quotients with less | same
  · calc divideToEven numerator denominator
        ≤ numerator / denominator + 1 := (div_le_divideToEven _ _).2
      _ ≤ other / denominator := less
      _ ≤ divideToEven other denominator := (div_le_divideToEven _ _).1
  · have remainders : numerator % denominator ≤ other % denominator := by
      have first := Nat.div_add_mod numerator denominator
      have second := Nat.div_add_mod other denominator
      rw [same] at first
      omega
    unfold divideToEven
    dsimp only
    rw [same]
    split_ifs <;> omega

end Division

/-! ### Rounding to fifty-three bits -/

/-- The value of the last of the fifty-three bits of a natural number. -/
def unit (value : Nat) : Nat :=
  2 ^ (value.log2 - 52)

/-- **A natural number, rounded to fifty-three bits**, a tie going to the even mantissa. -/
def roundNat (value : Nat) : Nat :=
  divideToEven value (unit value) * unit value

/-- **An integer, rounded to fifty-three bits.** -/
def roundInt (value : Int) : Int :=
  value.sign * roundNat value.natAbs

theorem unit_pos (value : Nat) : 0 < unit value :=
  Nat.two_pow_pos _

/-- Numbers of fifty-three bits have their last bit at one. -/
theorem unit_of_lt {value : Nat} (small : value < 2 ^ 53) : unit value = 1 := by
  rcases Nat.eq_zero_or_pos value with rfl | positive
  · rfl
  · have below := (Nat.log2_lt positive.ne').mpr small
    rw [unit, Nat.sub_eq_zero_of_le (Nat.le_of_lt_succ below), Nat.pow_zero]

/-- Numbers of more bits start with the fifty-third bit above the last one. -/
theorem unit_mul {value : Nat} (large : 52 ≤ value.log2) :
    2 ^ 52 * unit value = 2 ^ value.log2 := by
  rw [unit, ← Nat.pow_add, Nat.add_sub_cancel' large]

/-- The mantissa has fifty-three bits, or is the least number of fifty-four. -/
theorem divideToEven_unit {value : Nat} (large : 52 ≤ value.log2) :
    2 ^ 52 ≤ divideToEven value (unit value) ∧ divideToEven value (unit value) ≤ 2 ^ 53 := by
  have nonzero : value ≠ 0 := by
    rintro rfl
    exact absurd large (by decide)
  have least : 2 ^ 52 * unit value ≤ value := (unit_mul large).trans_le (Nat.log2_self_le nonzero)
  have most : value ≤ 2 ^ 53 * unit value := by
    rw [show (2 : Nat) ^ 53 = 2 * 2 ^ 52 by norm_num, Nat.mul_assoc, unit_mul large,
      ← Nat.pow_succ']
    exact Nat.lt_log2_self.le
  constructor
  · rw [← divideToEven_mul (2 ^ 52) (unit_pos value)]
    exact divideToEven_mono least
  · rw [← divideToEven_mul (2 ^ 53) (unit_pos value)]
    exact divideToEven_mono most

/-- Multiples of the last bit stay as they are. -/
theorem roundNat_of_dvd {value : Nat} (divides : unit value ∣ value) : roundNat value = value := by
  obtain ⟨quotient, same⟩ := divides
  rw [Nat.mul_comm] at same
  calc roundNat value = divideToEven (quotient * unit value) (unit value) * unit value := by
        rw [roundNat, ← same]
    _ = quotient * unit value := by rw [divideToEven_mul _ (unit_pos value)]
    _ = value := same.symm

/-- **Natural numbers up to `2 ^ 53` stay as they are.** -/
theorem roundNat_of_le {value : Nat} (small : value ≤ 2 ^ 53) : roundNat value = value := by
  refine roundNat_of_dvd ?_
  rcases Nat.lt_or_eq_of_le small with less | rfl
  · exact unit_of_lt less ▸ Nat.one_dvd value
  · rw [unit, Nat.log2_two_pow]
    exact Nat.pow_dvd_pow 2 (by decide)

/-- Rounding stays between two powers of two. -/
theorem roundNat_bounds {value : Nat} (positive : 0 < value) :
    2 ^ value.log2 ≤ roundNat value ∧ roundNat value ≤ 2 ^ (value.log2 + 1) := by
  rcases Nat.lt_or_ge value.log2 52 with small | large
  · have below : value < 2 ^ 53 := (Nat.log2_lt positive.ne').mp (small.trans (by decide))
    rw [roundNat_of_le below.le]
    exact ⟨Nat.log2_self_le positive.ne', Nat.lt_log2_self.le⟩
  · obtain ⟨least, most⟩ := divideToEven_unit large
    have upper : 2 ^ (value.log2 + 1) = 2 ^ 53 * unit value := by
      rw [Nat.pow_succ', ← unit_mul large, ← Nat.mul_assoc]
      norm_num
    rw [upper, ← unit_mul large]
    exact ⟨Nat.mul_le_mul_right _ least, Nat.mul_le_mul_right _ most⟩

/-- **Rounding keeps the order of natural numbers.** Between powers of two the last bit stays, and a
number is not rounded beyond the next power. -/
theorem roundNat_mono {value other : Nat} (below : value ≤ other) :
    roundNat value ≤ roundNat other := by
  rcases Nat.eq_zero_or_pos value with rfl | positive
  · exact (roundNat_of_le (Nat.zero_le _)).trans_le (Nat.zero_le _)
  · have nonzero : other ≠ 0 := (positive.trans_le below).ne'
    have logs : value.log2 ≤ other.log2 :=
      (Nat.le_log2 nonzero).mpr ((Nat.log2_self_le positive.ne').trans below)
    rcases Nat.lt_or_eq_of_le logs with less | same
    · calc roundNat value ≤ 2 ^ (value.log2 + 1) := (roundNat_bounds positive).2
        _ ≤ 2 ^ other.log2 := Nat.pow_le_pow_right two_pos less
        _ ≤ roundNat other := (roundNat_bounds (positive.trans_le below)).1
    · have units : unit value = unit other := by rw [unit, unit, same]
      rw [roundNat, roundNat, units]
      exact Nat.mul_le_mul_right _ (divideToEven_mono below)

/-! ### Rounding integers -/

theorem roundInt_natCast (value : Nat) : roundInt value = roundNat value := by
  rcases Nat.eq_zero_or_pos value with rfl | positive
  · rfl
  · rw [roundInt, Int.sign_eq_one_of_pos (Int.natCast_pos.mpr positive), one_mul,
      Int.natAbs_natCast]

theorem roundInt_neg (value : Int) : roundInt (-value) = -roundInt value := by
  rw [roundInt, roundInt, Int.sign_neg, Int.natAbs_neg, neg_mul]

/-- **Integers up to `2 ^ 53` in size stay as they are.** -/
theorem roundInt_of_le {value : Int} (small : value.natAbs ≤ 2 ^ 53) : roundInt value = value := by
  rw [roundInt, roundNat_of_le small, Int.sign_mul_natAbs]

/-- **Rounding keeps the order of integers.** -/
theorem roundInt_mono {value other : Int} (below : value ≤ other) :
    roundInt value ≤ roundInt other := by
  have zero : roundNat 0 = 0 := rfl
  obtain ⟨size, rfl | rfl⟩ := value.eq_nat_or_neg <;> obtain ⟨bound, rfl | rfl⟩ :=
    other.eq_nat_or_neg <;>
    simp only [roundInt_neg, roundInt_natCast]
  · exact Int.ofNat_le.mpr (roundNat_mono (by omega))
  · obtain ⟨rfl, rfl⟩ : size = 0 ∧ bound = 0 := by omega
    omega
  · omega
  · exact Int.neg_le_neg (Int.ofNat_le.mpr (roundNat_mono (by omega)))

/-- Integers of which one is below `2 ^ 53` in size are told apart. -/
theorem roundInt_lt {value other : Int} (less : value < other)
    (small : value.natAbs < 2 ^ 53 ∨ other.natAbs < 2 ^ 53) : roundInt value < roundInt other := by
  rcases small with small | small
  · calc roundInt value = value := roundInt_of_le small.le
      _ < value + 1 := Int.lt_succ value
      _ = roundInt (value + 1) := (roundInt_of_le (by omega)).symm
      _ ≤ roundInt other := roundInt_mono less
  · calc roundInt value ≤ roundInt (other - 1) := roundInt_mono (Int.le_sub_one_of_lt less)
      _ = other - 1 := roundInt_of_le (by omega)
      _ < other := Int.sub_lt_self other one_pos
      _ = roundInt other := (roundInt_of_le small.le).symm

/-- **Integers that differ when they are rounded, or of which one is below `2 ^ 53` in size**,
compare as they are rounded. -/
theorem compare_roundInt {value other : Int}
    (apart : value.natAbs < 2 ^ 53 ∨ other.natAbs < 2 ^ 53 ∨ roundInt value ≠ roundInt other) :
    Ord.compare (roundInt value) (roundInt other) = Ord.compare value other := by
  have strictly : ∀ {value other : Int}, (value.natAbs < 2 ^ 53 ∨ other.natAbs < 2 ^ 53 ∨
      roundInt value ≠ roundInt other) → value < other → roundInt value < roundInt other := by
    intro value other apart less
    rcases apart with small | small | differ
    · exact roundInt_lt less (.inl small)
    · exact roundInt_lt less (.inr small)
    · exact lt_of_le_of_ne (roundInt_mono less.le) differ
  rcases lt_trichotomy value other with less | rfl | greater
  · rw [compare_lt_iff_lt.mpr less, compare_lt_iff_lt.mpr (strictly apart less)]
  · rw [compare_eq_iff_eq.mpr rfl, compare_eq_iff_eq.mpr rfl]
  · have swapped :
        other.natAbs < 2 ^ 53 ∨ value.natAbs < 2 ^ 53 ∨ roundInt other ≠ roundInt value := by
      rw [ne_comm]
      exact or_left_comm.mp apart
    rw [compare_gt_iff_gt.mpr greater, compare_gt_iff_gt.mpr (strictly swapped greater)]

/-- **Integers compare as they are rounded just if they are equal or are told apart.** -/
theorem compare_roundInt_iff {value other : Int} :
    Ord.compare (roundInt value) (roundInt other) = Ord.compare value other ↔
      value = other ∨ roundInt value ≠ roundInt other := by
  constructor
  · intro same
    by_contra neither
    obtain ⟨differ, rounded⟩ := not_or.mp neither
    rw [not_not.mp rounded, compare_eq_iff_eq.mpr rfl] at same
    exact differ (compare_eq_iff_eq.mp same.symm)
  · rintro (rfl | apart)
    · rw [compare_eq_iff_eq.mpr rfl, compare_eq_iff_eq.mpr rfl]
    · exact compare_roundInt (.inr (.inr apart))

/-! ### The number nearest to an integer -/

/-- The exponent of the number nearest to a natural number makes its last bit the fifty-third. -/
theorem ratioExponent_one {value : Nat} (positive : 0 < value) :
    ratioExponent value 1 = (value.log2 : Int) - 52 := by
  have least := Nat.log2_self_le positive.ne'
  have enough : ¬ (rescale value 1 ((value.log2 : Int) - 53)).1 /
      (rescale value 1 ((value.log2 : Int) - 53)).2 < 2 ^ 53 := by
    rw [Nat.not_lt]
    unfold rescale
    split
    · rename_i large
      rw [Nat.pow_eq, one_mul, Nat.le_div_iff_mul_le (Nat.two_pow_pos _), ← Nat.pow_add]
      exact (Nat.pow_le_pow_right two_pos (by omega)).trans least
    · rename_i small
      rw [Nat.pow_eq, Nat.div_one]
      calc 2 ^ 53 = 2 ^ value.log2 * 2 ^ (-((value.log2 : Int) - 53)).toNat := by
            rw [← Nat.pow_add]
            congr 1
            omega
        _ ≤ value * 2 ^ (-((value.log2 : Int) - 53)).toNat := Nat.mul_le_mul_right _ least
  have log : Nat.log2 1 = 0 := by decide
  unfold ratioExponent
  simp only [log, Nat.pow_eq, Nat.cast_zero, sub_zero, if_neg enough]
  omega

/-- A number of fewer bits is given more of them. -/
theorem rescale_of_small {value : Nat} (small : value.log2 < 52) :
    rescale value 1 ((value.log2 : Int) - 52) = (value * 2 ^ (52 - value.log2), 1) := by
  have shift : (-((value.log2 : Int) - 52)).toNat = 52 - value.log2 := by omega
  rw [rescale, if_neg (by omega), Nat.pow_eq, shift]

/-- A number of more bits is divided by its last one. -/
theorem rescale_of_large {value : Nat} (large : 52 ≤ value.log2) :
    rescale value 1 ((value.log2 : Int) - 52) = (value, unit value) := by
  have shift : ((value.log2 : Int) - 52).toNat = value.log2 - 52 := by omega
  rw [rescale, if_pos (by omega), Nat.pow_eq, shift, one_mul, unit]

/-- The last bit of a large number, as a power with an integer exponent. -/
theorem unit_eq_zpow {value : Nat} (large : 52 ≤ value.log2) :
    (unit value : ℚ) = 2 ^ ((value.log2 : Int) - 52) := by
  rw [unit, Nat.cast_pow, Nat.cast_ofNat, ← zpow_natCast, Nat.cast_sub large, Nat.cast_ofNat]

/-- The mantissa of the number nearest to a natural number, and what is done where it is one bit too
long. -/
theorem Datum.ofRatio_one_eq (negative : Bool) {value numerator denominator : Nat}
    (positive : 0 < value)
    (scaled : rescale value 1 ((value.log2 : Int) - 52) = (numerator, denominator)) :
    ofRatio negative value 1 =
      if divideToEven numerator denominator = 2 ^ 53 then
        ofParts negative (2 ^ 52) ((value.log2 : Int) - 52 + 1)
      else ofParts negative (divideToEven numerator denominator) ((value.log2 : Int) - 52) := by
  rw [ofRatio, if_neg positive.ne', ratioExponent_one positive]
  dsimp only
  rw [scaled]
  rfl

/-- Where all bits fit, nothing is rounded. -/
theorem Datum.ofRatio_one_denotes_of_small (negative : Bool) {value : Nat} (positive : 0 < value)
    (small : value.log2 < 52) :
    (ofRatio negative value 1).Denotes ((if negative then -1 else 1) * roundNat value) := by
  have least : 2 ^ 52 ≤ value * 2 ^ (52 - value.log2) := by
    calc 2 ^ 52 = 2 ^ value.log2 * 2 ^ (52 - value.log2) := by
          rw [← Nat.pow_add, Nat.add_sub_cancel' small.le]
      _ ≤ _ := Nat.mul_le_mul_right _ (Nat.log2_self_le positive.ne')
  have most : value * 2 ^ (52 - value.log2) < 2 ^ 53 := by
    calc value * 2 ^ (52 - value.log2) < 2 ^ (value.log2 + 1) * 2 ^ (52 - value.log2) :=
          Nat.mul_lt_mul_of_pos_right Nat.lt_log2_self (Nat.two_pow_pos _)
      _ = 2 ^ 53 := by
          rw [← Nat.pow_add]
          congr 1
          omega
  have exact : roundNat value = value :=
    roundNat_of_le (Nat.lt_log2_self.le.trans (Nat.pow_le_pow_right two_pos (by omega)))
  have denotes :
      ((value * 2 ^ (52 - value.log2) : Nat) : ℚ) * 2 ^ ((value.log2 : Int) - 52) = value := by
    rw [Nat.cast_mul, Nat.cast_pow, Nat.cast_ofNat, ← zpow_natCast, mul_assoc,
      ← zpow_add₀ two_ne_zero, Nat.cast_sub small.le]
    simp
  rw [ofRatio_one_eq negative positive (rescale_of_small small), divideToEven_one,
    if_neg most.ne, exact, ← denotes]
  exact ofParts_denotes negative ⟨most, by omega, by omega, .inl least⟩

/-- Where there are more bits, the mantissa is rounded; it can become the next power of two. -/
theorem Datum.ofRatio_one_denotes_of_large (negative : Bool) {value : Nat} (large : 52 ≤ value.log2)
    (bounded : value.log2 ≤ 1000) :
    (ofRatio negative value 1).Denotes ((if negative then -1 else 1) * roundNat value) := by
  have positive : 0 < value := by
    rw [Nat.pos_iff_ne_zero]
    rintro rfl
    exact absurd large (by decide)
  obtain ⟨least, most⟩ := divideToEven_unit large
  rw [ofRatio_one_eq negative positive (rescale_of_large large), roundNat, Nat.cast_mul,
    unit_eq_zpow large]
  split
  · rename_i carries
    have denotes : ((2 ^ 53 : Nat) : ℚ) * 2 ^ ((value.log2 : Int) - 52) =
        (2 ^ 52 : Nat) * 2 ^ ((value.log2 : Int) - 52 + 1) := by
      rw [zpow_add_one₀ two_ne_zero]
      push_cast
      ring
    rw [carries, denotes]
    exact ofParts_denotes negative ⟨by decide, by omega, by omega, .inl le_rfl⟩
  · rename_i fits
    exact ofParts_denotes negative ⟨lt_of_le_of_ne most fits, by omega, by omega, .inl least⟩

/-- **The datum nearest to a natural number with a sign denotes the rounded number.** -/
theorem Datum.ofRatio_one_denotes (negative : Bool) {value : Nat} (bounded : value.log2 ≤ 1000) :
    (ofRatio negative value 1).Denotes ((if negative then -1 else 1) * roundNat value) := by
  rcases Nat.lt_or_ge value.log2 52 with small | large
  · rcases Nat.eq_zero_or_pos value with rfl | positive
    · refine ⟨zero negative, rfl, ?_⟩
      simp [toRat, signed, zero, roundNat_of_le]
    · exact ofRatio_one_denotes_of_small negative positive small
  · exact ofRatio_one_denotes_of_large negative large bounded

/-- **The datum nearest to an integer denotes the rounded integer.** -/
theorem Datum.ofInt_denotes {value : Int} (bounded : value.natAbs.log2 ≤ 1000) :
    (ofInt value).Denotes (roundInt value) := by
  have same : (roundInt value : ℚ) =
      (if decide (value < 0) = true then -1 else 1) * roundNat value.natAbs := by
    rcases lt_trichotomy value 0 with negative | rfl | positive
    · simp [roundInt, negative, Int.sign_eq_neg_one_of_neg negative]
    · simp [roundInt, roundNat_of_le]
    · simp [roundInt, positive.le, Int.sign_eq_one_of_pos positive]
  rw [same]
  exact ofRatio_one_denotes _ bounded

end Binary64

namespace Json

/-! ### JSON integers -/

/-- **The datum of a JSON integer denotes the rounded integer.** -/
theorem Integer.denotes (n : Integer) :
    (Number.integer n).datum.Denotes (Binary64.roundInt n.value) := by
  refine Binary64.Datum.ofInt_denotes ?_
  obtain ⟨least, most⟩ := n.fits
  have bounded : n.value.natAbs < 2 ^ 65 := by
    rw [Nat.pow_eq] at least most
    omega
  rcases Nat.eq_zero_or_pos n.value.natAbs with zero | positive
  · rw [zero]
    decide
  · exact ((Nat.log2_lt positive.ne').mpr bounded).le.trans (by decide)

/-- **JSON integers compare as they are rounded.** -/
theorem Integer.compare?_datum (first second : Integer) :
    (Number.integer first).datum.compare? (Number.integer second).datum =
      some (Ord.compare (Binary64.roundInt first.value) (Binary64.roundInt second.value)) := by
  rw [first.denotes.compare? second.denotes, ← cmp_eq_compare, Int.cast_strictMono.cmp_map_eq,
    cmp_eq_compare]

end Json

end Schemata
