/-
**Binary64 numbers, exactly.**

A finite binary64 number is `± mantissa · 2 ^ exponent` with the mantissa and exponent in canonical
form, so that equal fields and equal numbers differ only in the sign of zero. The arithmetic needed
here is rounding, comparison and the passage to integers, and all of it is done on exact integers:

* `Datum.ofRatio` rounds a quotient of natural numbers to the nearest number, ties to even;
* `Datum.ofDecimal` and `Datum.ofInt` read decimals and integers through it;
* `Binary64.compare` compares two finite numbers by cross scaling;
* `Binary64.toInt?` and `Binary64.safeInt?` give the integer that a number denotes.
-/

namespace Schemata

/-- **The canonical forms**: fifty-three bits of mantissa, all of them used unless the exponent is
the least one. -/
def Binary64.Canonical (mantissa : Nat) (exponent : Int) : Prop :=
  mantissa < Nat.pow 2 53 ∧ -1074 ≤ exponent ∧ exponent ≤ 971 ∧
    (Nat.pow 2 52 ≤ mantissa ∨ exponent = -1074)

instance Binary64.decidableCanonical (mantissa : Nat) (exponent : Int) :
    Decidable (Binary64.Canonical mantissa exponent) :=
  inferInstanceAs (Decidable (_ ∧ _ ∧ _ ∧ (_ ∨ _)))

/-- A finite binary64 number. -/
structure Binary64 where
  negative : Bool
  mantissa : Nat
  exponent : Int
  canonical : Binary64.Canonical mantissa exponent
deriving DecidableEq, Repr

namespace Binary64

/-- Zero with the given sign. -/
def zero (negative : Bool) : Binary64 :=
  ⟨negative, 0, -1074, by decide⟩

instance : Inhabited Binary64 := ⟨zero false⟩

/-- The mantissa with its sign. -/
def signed (x : Binary64) : Int :=
  if x.negative then -(x.mantissa : Int) else x.mantissa

/-- **The order of the numbers**; the two zeros are equal. -/
def compare (x y : Binary64) : Ordering :=
  let low := min x.exponent y.exponent
  Ord.compare (x.signed * Nat.pow 2 (x.exponent - low).toNat)
    (y.signed * Nat.pow 2 (y.exponent - low).toNat)

/-- The integer that an integral number denotes. -/
def toInt? (x : Binary64) : Option Int :=
  if 0 ≤ x.exponent then some (x.signed * Nat.pow 2 x.exponent.toNat)
  else if x.mantissa % Nat.pow 2 (-x.exponent).toNat = 0 then
    some (x.signed / Nat.pow 2 (-x.exponent).toNat)
  else none

/-- Whether the number has no fractional part. -/
def isIntegral (x : Binary64) : Bool :=
  x.toInt?.isSome

/-- The integer that an integral number below `2 ^ 53` in size denotes. -/
def safeInt? (x : Binary64) : Option Int :=
  x.toInt?.filter fun value => value.natAbs < Nat.pow 2 53

/-! ### Every datum -/

/-- A finite number, an infinity, or not a number. -/
inductive Datum where
  | finite (x : Binary64)
  | infinite (negative : Bool)
  | nan
deriving DecidableEq, Repr, Inhabited

namespace Datum

/-- The number, if the datum is finite. -/
def finite? : Datum → Option Binary64
  | finite x => some x
  | _ => none

/-- **The partial order of the data**: not a number is comparable with nothing. -/
def compare? : Datum → Datum → Option Ordering
  | finite x, finite y => some (x.compare y)
  | infinite first, infinite second => some (Ord.compare second first)
  | infinite negative, finite _ => some (if negative then .lt else .gt)
  | finite _, infinite negative => some (if negative then .gt else .lt)
  | _, _ => none

/-- The datum with this canonical form; a form that is too large overflows to an infinity. -/
def ofParts (negative : Bool) (mantissa : Nat) (exponent : Int) : Datum :=
  if canonical : Canonical mantissa exponent then .finite ⟨negative, mantissa, exponent, canonical⟩
  else .infinite negative

end Datum

/-! ### Rounding -/

/-- The natural number nearest to `numerator / denominator`, a tie going to the even one. -/
def divideToEven (numerator denominator : Nat) : Nat :=
  let quotient := numerator / denominator
  let remainder := numerator % denominator
  if 2 * remainder < denominator then quotient
  else if denominator < 2 * remainder then quotient + 1
  else quotient + quotient % 2

/-- The quotient `numerator / denominator / 2 ^ exponent` as a pair of natural numbers. -/
def rescale (numerator denominator : Nat) (exponent : Int) : Nat × Nat :=
  if 0 ≤ exponent then (numerator, denominator * Nat.pow 2 exponent.toNat)
  else (numerator * Nat.pow 2 (-exponent).toNat, denominator)

/-- The exponent at which the quotient has fifty-three bits, or the least one. -/
def ratioExponent (numerator denominator : Nat) : Int :=
  let guess := (numerator.log2 : Int) - denominator.log2 - 53
  let (scaledNumerator, scaledDenominator) := rescale numerator denominator guess
  max (-1074) (if scaledNumerator / scaledDenominator < Nat.pow 2 53 then guess else guess + 1)

/-- **The datum nearest to `± numerator / denominator`**, a tie going to the even mantissa. -/
def Datum.ofRatio (negative : Bool) (numerator denominator : Nat) : Datum :=
  if numerator = 0 then .finite (zero negative)
  else
    let exponent := ratioExponent numerator denominator
    let (scaledNumerator, scaledDenominator) := rescale numerator denominator exponent
    let mantissa := divideToEven scaledNumerator scaledDenominator
    if mantissa = Nat.pow 2 53 then .ofParts negative (Nat.pow 2 52) (exponent + 1)
    else .ofParts negative mantissa exponent

/-- The datum nearest to an integer. -/
def Datum.ofInt (value : Int) : Datum :=
  .ofRatio (value < 0) value.natAbs 1

/-- **The datum nearest to `± digits · 10 ^ exponent`.** Decimals beyond every finite number, and
those nearer to zero than to any other number, are recognised by their size alone. -/
def Datum.ofDecimal (negative : Bool) (digits : Nat) (exponent : Int) : Datum :=
  let size := (Nat.toDigits 10 digits).length + exponent
  if digits = 0 ∨ size < -330 then .finite (zero negative)
  else if 310 < size then .infinite negative
  else if 0 ≤ exponent then .ofRatio negative (digits * Nat.pow 10 exponent.toNat) 1
  else .ofRatio negative digits (Nat.pow 10 (-exponent).toNat)

end Binary64

end Schemata
