/-
**The shortest decimal of a binary64 number.**

Every decimal inside the rounding interval of a number reads back as that number. The interval ends
half a unit above and below the number (a quarter below at a power of two) and holds its ends when
the mantissa is even. Of the decimals inside it, the shortest one is written, and of those the one
nearest to the number:

* `Binary64.shortest` finds it among the two neighbours of the number on each decimal grid;
* `Decimal.render` writes a decimal under a `Layout`, positionally or with an exponent;
* `Binary64.render` writes a number, with the sign of zero.
-/

import Schemata.Numeral.Binary64

namespace Schemata

/-- The number `digits · 10 ^ exponent`. -/
structure Decimal where
  digits : Nat
  exponent : Int
deriving DecidableEq, Repr, Inhabited

namespace Decimal

/-- Drop up to `count` trailing zeros of the digits. -/
def dropZeros : Nat → Decimal → Decimal
  | 0, decimal => decimal
  | count + 1, decimal =>
    if decimal.digits % 10 = 0 ∧ decimal.digits ≠ 0 then
      dropZeros count ⟨decimal.digits / 10, decimal.exponent + 1⟩
    else decimal

/-- How decimals are laid out: which decimal exponents are written positionally, and whether an
integral value keeps a fraction. -/
structure Layout where
  least : Int
  greatest : Int
  keepFraction : Bool

/-- **The text of a decimal.** The exponent is that of the leading digit and carries its sign. -/
def render (layout : Layout) (decimal : Decimal) : String :=
  let digits := Nat.toDigits 10 decimal.digits
  let point : Int := digits.length + decimal.exponent
  let leading := point - 1
  if layout.least ≤ leading ∧ leading ≤ layout.greatest then
    if 0 ≤ decimal.exponent then
      String.ofList (digits ++ List.replicate decimal.exponent.toNat '0') ++
        (if layout.keepFraction then ".0" else "")
    else if 0 < point then
      String.ofList (digits.take point.toNat) ++ "." ++ String.ofList (digits.drop point.toNat)
    else
      "0." ++ String.ofList (List.replicate (-point).toNat '0' ++ digits)
  else
    let fraction := digits.drop 1
    String.ofList (digits.take 1) ++ (if fraction.isEmpty then "" else ".") ++
      String.ofList fraction ++ "e" ++ (if leading < 0 then "-" else "+") ++
      toString leading.natAbs

end Decimal

namespace Binary64

/-- The exponent of the leading decimal digit of a positive number `mantissa · 2 ^ exponent`. -/
def leadingExponent (mantissa : Nat) (exponent : Int) : Int :=
  let guess := Int.fdiv (((mantissa.log2 : Int) + exponent) * 30103) 100000
  let next := guess + 1
  let reaches :=
    mantissa * Nat.pow 2 exponent.toNat * Nat.pow 10 (-next).toNat ≥
      Nat.pow 10 next.toNat * Nat.pow 2 (-exponent).toNat
  if reaches then next else guess

/-- The decimal with `count` digits that is nearest to the number, if it lies inside the rounding
interval. All sizes are measured in quarters of the mantissa's unit. -/
def nearestWith? (x : Binary64) (leading : Int) (count : Nat) : Option Decimal :=
  let quarter := x.exponent - 2
  let grid := leading - (count - 1 : Nat)
  let step := Nat.pow 10 grid.toNat * Nat.pow 2 (-quarter).toNat
  let unit := Nat.pow 2 quarter.toNat * Nat.pow 10 (-grid).toNat
  let value := 4 * x.mantissa * unit
  let lower :=
    (if x.mantissa = Nat.pow 2 52 ∧ x.exponent ≠ -1074 then 4 * x.mantissa - 1
      else 4 * x.mantissa - 2) * unit
  let upper := (4 * x.mantissa + 2) * unit
  let inside (candidate : Nat) : Bool :=
    let size := candidate * step
    if x.mantissa % 2 = 0 then lower ≤ size && size ≤ upper else lower < size && size < upper
  let below := value / step
  let above := below + 1
  let toBelow := value - below * step
  let toAbove := above * step - value
  let belowFirst := toBelow < toAbove || (toBelow == toAbove && below % 2 == 0)
  let ordered := if belowFirst then [below, above] else [above, below]
  (ordered.find? inside).map fun digits => ⟨digits, grid⟩

/-- **The shortest decimal that reads back as the number**, ignoring its sign. -/
def shortest (x : Binary64) : Decimal :=
  if x.mantissa = 0 then ⟨0, 0⟩
  else
    let leading := leadingExponent x.mantissa x.exponent
    let found := (List.range 17).findSome? fun before => x.nearestWith? leading (before + 1)
    Decimal.dropZeros 20 (found.getD ⟨x.mantissa, x.exponent⟩)

/-- The text of a number under a layout. -/
def render (layout : Decimal.Layout) (x : Binary64) : String :=
  (if x.negative then "-" else "") ++ x.shortest.render layout

end Binary64

end Schemata
