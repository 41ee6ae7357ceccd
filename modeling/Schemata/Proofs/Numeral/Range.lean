/-
**Which quotients and decimals are finite binary64 data.**

A datum nearest to a number is finite just below a limit, which lies half a unit beyond the largest
finite number. From there on it is an infinity.

* `Binary64.le_divideToEven_iff`: when a quotient is rounded up to an even number;
* `Binary64.ratioExponent_spec`: the exponent of a quotient, by its leading bit;
* `Binary64.Datum.ofRatio_rangesAs` and `Binary64.Datum.ofDecimal_rangesAs`: quotients and decimals
  are finite data just below the limit.
-/

import Schemata.Proofs.Numeral.Rounding

namespace Schemata.Binary64

/-! ### Rounding a quotient -/

section Quotients

variable {numerator denominator : Nat}

/-- A quotient is rounded to the integers around it. -/
theorem divideToEven_bounds (nonzero : 0 < denominator) {low high : Nat}
    (least : (low : ℚ) ≤ numerator / denominator) (most : (numerator : ℚ) / denominator ≤ high) :
    low ≤ divideToEven numerator denominator ∧ divideToEven numerator denominator ≤ high := by
  have scale : (0 : ℚ) < denominator := Nat.cast_pos.mpr nonzero
  rw [le_div_iff₀ scale] at least
  rw [div_le_iff₀ scale] at most
  rw [← divideToEven_mul low nonzero, ← divideToEven_mul high nonzero]
  exact ⟨divideToEven_mono (by exact_mod_cast least), divideToEven_mono (by exact_mod_cast most)⟩

/-- **A quotient is rounded up to an even number** from half a unit below the number on. -/
theorem le_divideToEven_iff (nonzero : 0 < denominator) {bound : Nat} (even : bound % 2 = 0) :
    bound ≤ divideToEven numerator denominator ↔ (bound : ℚ) - 1 / 2 ≤ numerator / denominator := by
  have scale : (0 : ℚ) < denominator := Nat.cast_pos.mpr nonzero
  have doubled : (bound : ℚ) - 1 / 2 ≤ numerator / denominator ↔
      2 * bound * denominator ≤ 2 * numerator + denominator := by
    rw [le_div_iff₀ scale, ← Nat.cast_le (α := ℚ)]
    push_cast
    constructor <;> intro below <;> linarith
  have split := Nat.div_add_mod numerator denominator
  have small := Nat.mod_lt numerator nonzero
  -- The quotient lies between its floor and the next number, with which the bound is compared.
  have floor : ∀ {number : Nat}, bound ≤ number →
      2 * bound * denominator ≤ 2 * (denominator * number) := fun below => by
    calc 2 * bound * denominator = 2 * (denominator * bound) := by ring
      _ ≤ _ := Nat.mul_le_mul_left _ (Nat.mul_le_mul_left _ below)
  have beyond : ∀ {number : Nat}, number < bound →
      2 * (denominator * number) + 2 * denominator ≤ 2 * bound * denominator := fun above => by
    calc 2 * (denominator * _) + 2 * denominator = 2 * (denominator * (_ + 1)) := by ring
      _ ≤ 2 * (denominator * bound) := Nat.mul_le_mul_left _ (Nat.mul_le_mul_left _ above)
      _ = 2 * bound * denominator := by ring
  rw [doubled]
  unfold divideToEven
  dsimp only
  rcases lt_trichotomy bound (numerator / denominator + 1) with less | same | greater
  · have kept := floor (Nat.le_of_lt_succ less)
    refine iff_of_true ?_ (by omega)
    split_ifs <;> omega
  · have whole : 2 * bound * denominator =
        2 * (denominator * (numerator / denominator)) + 2 * denominator := by
      rw [same]
      ring
    split_ifs <;> omega
  · have above := beyond greater
    have next : denominator * (numerator / denominator + 1) =
        denominator * (numerator / denominator) + denominator := by ring
    refine iff_of_false ?_ (by omega)
    split_ifs <;> omega

end Quotients

/-! ### The leading bit of a quotient -/

section Ratios

variable {numerator denominator : Nat}

/-- Rescaling divides by a power of two. -/
theorem rescale_spec (numerator : Nat) (nonzero : 0 < denominator) (exponent : Int) :
    0 < (rescale numerator denominator exponent).2 ∧
      ((rescale numerator denominator exponent).1 : ℚ) /
        (rescale numerator denominator exponent).2 = numerator / denominator / 2 ^ exponent := by
  unfold rescale
  split_ifs with above
  · obtain ⟨size, rfl⟩ := Int.eq_ofNat_of_zero_le above
    refine ⟨Nat.mul_pos nonzero (Nat.two_pow_pos _), ?_⟩
    rw [Int.toNat_natCast, Nat.pow_eq, zpow_natCast, div_div]
    push_cast
    rfl
  · obtain ⟨size, same⟩ := Int.eq_ofNat_of_zero_le (show 0 ≤ -exponent by omega)
    refine ⟨nonzero, ?_⟩
    rw [same, Int.toNat_natCast, Nat.pow_eq, show exponent = -size by omega, zpow_neg, zpow_natCast,
      div_inv_eq_mul]
    push_cast
    ring

/-- The leading bit of a natural number. -/
theorem log2_bounds {value : Nat} (positive : 0 < value) :
    (2 : ℚ) ^ (value.log2 : Int) ≤ value ∧ (value : ℚ) < 2 ^ ((value.log2 : Int) + 1) := by
  rw [← Nat.cast_succ, zpow_natCast, zpow_natCast]
  exact ⟨by exact_mod_cast Nat.log2_self_le positive.ne', by exact_mod_cast Nat.lt_log2_self⟩

/-- The leading bit of a quotient is one of two. -/
theorem quotient_bounds (positive : 0 < numerator) (nonzero : 0 < denominator) {bits : Int}
    (difference : bits = (numerator.log2 : Int) - denominator.log2) :
    (2 : ℚ) ^ (bits - 1) ≤ numerator / denominator ∧
      (numerator : ℚ) / denominator < 2 ^ (bits + 1) := by
  have scale : (0 : ℚ) < denominator := Nat.cast_pos.mpr nonzero
  obtain ⟨least, most⟩ := log2_bounds positive
  obtain ⟨leastBelow, mostBelow⟩ := log2_bounds nonzero
  rw [le_div_iff₀ scale, div_lt_iff₀ scale]
  constructor
  · calc (2 : ℚ) ^ (bits - 1) * denominator ≤
      2 ^ (bits - 1) * 2 ^ ((denominator.log2 : Int) + 1) := by gcongr
      _ = 2 ^ (numerator.log2 : Int) := by
          rw [← zpow_add₀ two_ne_zero]
          congr 1
          omega
      _ ≤ numerator := least
  · calc (numerator : ℚ) < 2 ^ ((numerator.log2 : Int) + 1) := most
      _ = 2 ^ (bits + 1) * 2 ^ (denominator.log2 : Int) := by
          rw [← zpow_add₀ two_ne_zero]
          congr 1
          omega
      _ ≤ 2 ^ (bits + 1) * denominator := by gcongr

/-- Whether a rescaled quotient has fifty-three bits at most. -/
theorem rescale_div_lt_iff (numerator : Nat) (nonzero : 0 < denominator) (exponent : Int) :
    (rescale numerator denominator exponent).1 / (rescale numerator denominator exponent).2 <
      Nat.pow 2 53 ↔ (numerator : ℚ) / denominator < 2 ^ (exponent + 53) := by
  obtain ⟨divisor, same⟩ := rescale_spec numerator nonzero exponent
  rw [Nat.div_lt_iff_lt_mul divisor, ← Nat.cast_lt (α := ℚ), Nat.cast_mul,
    ← div_lt_iff₀ (Nat.cast_pos.mpr divisor), same, div_lt_iff₀ (zpow_pos two_pos _),
    add_comm exponent, zpow_add₀ two_ne_zero]
  norm_num

/-- **The exponent of a quotient makes its last bit the fifty-third**, unless it is the least
exponent. -/
theorem ratioExponent_spec (positive : 0 < numerator) (nonzero : 0 < denominator) : ∃ leading : Int,
    ratioExponent numerator denominator = max (-1074) leading ∧
      (2 : ℚ) ^ (leading + 52) ≤ numerator / denominator ∧
      (numerator : ℚ) / denominator < 2 ^ (leading + 53) := by
  obtain ⟨least, most⟩ := quotient_bounds positive nonzero rfl
  have guessed := rescale_div_lt_iff numerator nonzero
    ((numerator.log2 : Int) - denominator.log2 - 53)
  unfold ratioExponent
  dsimp only
  split_ifs with few
  · refine ⟨_, rfl, ?_, guessed.mp few⟩
    rwa [sub_add]
  · refine ⟨_, rfl, ?_, ?_⟩
    · rw [add_assoc]
      exact not_lt.mp (mt guessed.mpr few)
    · rwa [sub_add_eq_add_sub, sub_add_cancel]

/-! ### The range of finite data -/

/-- **The least size that is rounded beyond every finite number**: the largest one and half of its
last bit. -/
def overflow : ℚ :=
  2 ^ 1024 - 2 ^ 970

/-- **A datum is finite just below the limit.** From there on it is an infinity. -/
structure Datum.RangesAs (datum : Datum) (negative : Bool) (size : ℚ) : Prop where
  finite : size < overflow → ∃ x, datum = .finite x
  infinite : overflow ≤ size → datum = .infinite negative

theorem overflow_eq : overflow = (2 ^ 54 - 1) * 2 ^ (970 : Int) := by
  have power : (2 : ℚ) ^ 1024 = 2 ^ 54 * 2 ^ 970 := by rw [← pow_add]
  rw [overflow, power, sub_one_mul]
  rfl

/-- The limit lies between two powers of two. -/
theorem overflow_bounds : (2 : ℚ) ^ (1023 : Int) < overflow ∧ overflow ≤ 2 ^ (1024 : Int) := by
  have positive : (0 : ℚ) < 2 ^ (970 : Int) := zpow_pos two_pos _
  have low : (2 : ℚ) ^ (1023 : Int) = 2 ^ 53 * 2 ^ (970 : Int) := by
    rw [← zpow_natCast, ← zpow_add₀ two_ne_zero]
    rfl
  have high : (2 : ℚ) ^ (1024 : Int) = 2 ^ 54 * 2 ^ (970 : Int) := by
    rw [← zpow_natCast, ← zpow_add₀ two_ne_zero]
    rfl
  rw [overflow_eq, low, high]
  exact ⟨mul_lt_mul_of_pos_right (by norm_num) positive,
    mul_le_mul_of_nonneg_right (by norm_num) positive.le⟩

theorem overflow_pos : 0 < overflow :=
  (zpow_pos two_pos _).trans overflow_bounds.1

/-- The mantissa of a quotient has fifty-three bits, or is the least number of fifty-four; with the
least exponent it may have fewer. -/
theorem mantissa_bounds (nonzero : 0 < denominator) {leading exponent : Int}
    (chosen : exponent = max (-1074) leading)
    (least : (2 : ℚ) ^ (leading + 52) ≤ numerator / denominator)
    (most : (numerator : ℚ) / denominator < 2 ^ (leading + 53)) {scaled : Nat × Nat}
    (rescaled : rescale numerator denominator exponent = scaled) :
    divideToEven scaled.1 scaled.2 ≤ 2 ^ 53 ∧
      (2 ^ 52 ≤ divideToEven scaled.1 scaled.2 ∨ exponent = -1074) := by
  obtain ⟨divisor, same⟩ := rescale_spec numerator nonzero exponent
  rw [rescaled] at divisor same
  have positive : (0 : ℚ) < 2 ^ exponent := zpow_pos two_pos _
  have high : (scaled.1 : ℚ) / scaled.2 ≤ (2 ^ 53 : Nat) := by
    rw [same, div_le_iff₀ positive, Nat.cast_pow, ← zpow_natCast, Nat.cast_ofNat,
      ← zpow_add₀ two_ne_zero]
    exact most.le.trans (zpow_le_zpow_right₀ one_le_two (by omega))
  have zero : ((0 : Nat) : ℚ) ≤ scaled.1 / scaled.2 := by positivity
  refine ⟨(divideToEven_bounds divisor zero high).2, ?_⟩
  rcases le_or_gt (-1074) leading with normal | subnormal
  · have low : ((2 ^ 52 : Nat) : ℚ) ≤ scaled.1 / scaled.2 := by
      rw [same, le_div_iff₀ positive, Nat.cast_pow, ← zpow_natCast, Nat.cast_ofNat,
        ← zpow_add₀ two_ne_zero]
      exact (zpow_le_zpow_right₀ one_le_two (by omega)).trans least
    exact .inl (divideToEven_bounds divisor low high).1
  · exact .inr (by omega)

/-- **The mantissa becomes one bit too long just at the limit**, where the exponent is the largest
one. -/
theorem mantissa_carries_iff (nonzero : 0 < denominator) {scaled : Nat × Nat}
    (rescaled : rescale numerator denominator 971 = scaled) :
    2 ^ 53 ≤ divideToEven scaled.1 scaled.2 ↔ overflow ≤ numerator / denominator := by
  obtain ⟨divisor, same⟩ := rescale_spec numerator nonzero 971
  rw [rescaled] at divisor same
  have limit : overflow = ((2 ^ 53 : Nat) - 1 / 2 : ℚ) * 2 ^ (971 : Int) := by
    rw [overflow_eq, show (971 : Int) = 970 + 1 from rfl, zpow_add_one₀ two_ne_zero]
    generalize (2 : ℚ) ^ (970 : Int) = power
    push_cast
    ring
  rw [le_divideToEven_iff divisor (by decide), same, le_div_iff₀ (zpow_pos two_pos _), limit]

/-- **A quotient is rounded to canonical parts**, but for an exponent that is too large from the
limit on. -/
theorem Datum.ofRatio_parts (negative : Bool) (positive : 0 < numerator)
    (nonzero : 0 < denominator) :
    ∃ mantissa exponent, ofRatio negative numerator denominator =
      ofParts negative mantissa exponent ∧
      mantissa < 2 ^ 53 ∧ -1074 ≤ exponent ∧ (2 ^ 52 ≤ mantissa ∨ exponent = -1074) ∧
      (exponent ≤ 971 ↔ (numerator : ℚ) / denominator < overflow) := by
  obtain ⟨leading, chosen, least, most⟩ := ratioExponent_spec positive nonzero
  obtain ⟨scaled, rescaled⟩ : ∃ scaled,
      rescale numerator denominator (ratioExponent numerator denominator) = scaled := ⟨_, rfl⟩
  obtain ⟨high, low⟩ := mantissa_bounds nonzero chosen least most rescaled
  have limit :
      (if divideToEven scaled.1 scaled.2 = 2 ^ 53 then ratioExponent numerator denominator + 1
      else ratioExponent numerator denominator) ≤ 971 ↔ (numerator :
      ℚ) / denominator < overflow := by
    rcases lt_trichotomy leading 971 with small | rfl | large
    · refine iff_of_true (by split_ifs <;> omega) ?_
      calc (numerator : ℚ) / denominator < 2 ^ (leading + 53) := most
        _ ≤ 2 ^ (1023 : Int) := zpow_le_zpow_right₀ one_le_two (by omega)
        _ < overflow := overflow_bounds.1
    · rw [chosen] at rescaled ⊢
      rw [← not_le, ← mantissa_carries_iff nonzero rescaled]
      split_ifs with carries
      · exact iff_of_false (by decide) (not_not.mpr carries.ge)
      · exact iff_of_true (by decide) fun above => carries (high.antisymm above)
    · refine iff_of_false (by split_ifs <;> omega) (not_lt.mpr ?_)
      calc overflow ≤ 2 ^ (1024 : Int) := overflow_bounds.2
        _ ≤ 2 ^ (leading + 52) := zpow_le_zpow_right₀ one_le_two (by omega)
        _ ≤ (numerator : ℚ) / denominator := least
  have whole : ofRatio negative numerator denominator =
      if divideToEven scaled.1 scaled.2 = 2 ^ 53 then
        ofParts negative (2 ^ 52) (ratioExponent numerator denominator + 1)
      else
        ofParts negative (divideToEven scaled.1 scaled.2)
          (ratioExponent numerator denominator) := by
    rw [ofRatio, if_neg positive.ne', ← rescaled]
    rfl
  split_ifs at whole limit with carries
  · exact ⟨_, _, whole, by decide, by omega, .inl le_rfl, limit⟩
  · exact ⟨_, _, whole, lt_of_le_of_ne high carries, by omega, low, limit⟩

/-- **A quotient is rounded to a finite number just below the limit.** -/
theorem Datum.ofRatio_rangesAs (negative : Bool) (numerator : Nat) (nonzero : 0 < denominator) :
    (ofRatio negative numerator denominator).RangesAs negative (numerator / denominator) := by
  rcases Nat.eq_zero_or_pos numerator with rfl | positive
  · rw [Nat.cast_zero, zero_div]
    exact ⟨fun _ => ⟨_, rfl⟩, fun above => absurd overflow_pos (not_lt.mpr above)⟩
  · obtain ⟨mantissa, exponent, whole, most, least, normal, limit⟩ :=
      ofRatio_parts negative positive nonzero
    rw [whole]
    refine ⟨fun below => ⟨_, dif_pos ⟨most, least, limit.mpr below, normal⟩⟩,
      fun above => dif_neg ?_⟩
    rintro ⟨-, -, fits, -⟩
    exact absurd (limit.mp fits) (not_lt.mpr above)

end Ratios

/-! ### Decimals -/

/-- The number of digits of a natural number. -/
theorem toDigits_bounds {value : Nat} (positive : 0 < value) :
    (10 : ℚ) ^ (((Nat.toDigits 10 value).length : Int) - 1) ≤ value ∧
      (value : ℚ) < 10 ^ ((Nat.toDigits 10 value).length : Int) := by
  have some : 0 < (Nat.toDigits 10 value).length := Nat.length_toDigits_pos
  have most : value < 10 ^ (Nat.toDigits 10 value).length :=
    (Nat.length_toDigits_le_iff (by decide) some).mp le_rfl
  have least : 10 ^ ((Nat.toDigits 10 value).length - 1) ≤ value := by
    rcases Nat.eq_zero_or_pos ((Nat.toDigits 10 value).length - 1) with one | more
    · rw [one]
      exact positive
    · by_contra below
      have fewer := (Nat.length_toDigits_le_iff (by decide) more).mpr (not_le.mp below)
      omega
  rw [← Nat.cast_pred some, zpow_natCast, zpow_natCast]
  exact ⟨by exact_mod_cast least, by exact_mod_cast most⟩

/-- An integer that is not recognised by its size is rounded as a quotient. -/
theorem Datum.ofDecimal_zero (negative : Bool) {digits : Nat}
    (few : (Nat.toDigits 10 digits).length ≤ 310) :
    ofDecimal negative digits 0 = ofRatio negative digits 1 := by
  rcases Nat.eq_zero_or_pos digits with rfl | positive
  · simp [ofDecimal, ofRatio]
  · simp only [ofDecimal]
    rw [if_neg (by omega), if_neg (by omega), if_pos le_rfl, Int.toNat_zero, Nat.pow_eq,
      Nat.pow_zero, Nat.mul_one]

/-- **A decimal is rounded to a finite number just below the limit.** Those that are recognised by
their size are far from it. -/
theorem Datum.ofDecimal_rangesAs (negative : Bool) (digits : Nat) (exponent : Int) :
    (ofDecimal negative digits exponent).RangesAs negative (digits * 10 ^ exponent) := by
  have scale : (0 : ℚ) < 10 ^ exponent := zpow_pos (by norm_num) _
  rcases Nat.eq_zero_or_pos digits with rfl | positive
  · rw [Nat.cast_zero, zero_mul]
    have zero : ofDecimal negative 0 exponent = .finite (zero negative) := by simp [ofDecimal]
    exact ⟨fun _ => ⟨_, zero⟩, fun above => absurd overflow_pos (not_lt.mpr above)⟩
  obtain ⟨least, most⟩ := toDigits_bounds positive
  obtain ⟨size, sized⟩ : ∃ size, size = ((Nat.toDigits 10 digits).length : Int) + exponent :=
    ⟨_, rfl⟩
  have lower : (10 : ℚ) ^ (size - 1) ≤ digits * 10 ^ exponent := by
    rw [sized, add_sub_right_comm, zpow_add₀ (by norm_num)]
    gcongr
  have upper : (digits : ℚ) * 10 ^ exponent < 10 ^ size := by
    rw [sized, zpow_add₀ (by norm_num)]
    gcongr
  unfold ofDecimal
  dsimp only
  rw [← sized]
  split_ifs with tiny huge whole
  · have below : (digits : ℚ) * 10 ^ exponent < overflow := by
      calc (digits : ℚ) * 10 ^ exponent < 10 ^ size := upper
        _ ≤ 10 ^ (0 : Int) := zpow_le_zpow_right₀ (by norm_num) (by omega)
        _ ≤ 2 ^ (1023 : Int) := one_le_zpow₀ one_le_two (by decide)
        _ < overflow := overflow_bounds.1
    exact ⟨fun _ => ⟨_, rfl⟩, fun above => absurd below (not_lt.mpr above)⟩
  · have above : overflow ≤ digits * 10 ^ exponent := by
      have powers : 2 ^ 1024 ≤ 10 ^ 310 := by decide +kernel
      calc overflow ≤ 2 ^ (1024 : Int) := overflow_bounds.2
        _ ≤ 10 ^ (310 : Int) := by exact_mod_cast powers
        _ ≤ 10 ^ (size - 1) := zpow_le_zpow_right₀ (by norm_num) (by omega)
        _ ≤ digits * 10 ^ exponent := lower
    exact ⟨fun below => absurd below (not_lt.mpr above), fun _ => rfl⟩
  · obtain ⟨power, rfl⟩ := Int.eq_ofNat_of_zero_le whole
    have ranges := ofRatio_rangesAs negative (digits * 10 ^ power) one_pos
    rw [Nat.cast_one, div_one] at ranges
    push_cast at ranges
    rwa [zpow_natCast]
  · obtain ⟨power, same⟩ := Int.eq_ofNat_of_zero_le (show 0 ≤ -exponent by omega)
    have scaled : 0 < 10 ^ power := Nat.pow_pos (by decide)
    have ranges := ofRatio_rangesAs negative digits scaled
    push_cast at ranges
    rwa [same, show exponent = -power by omega, zpow_neg, zpow_natCast, ← div_eq_mul_inv]

end Schemata.Binary64
