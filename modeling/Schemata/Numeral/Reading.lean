/-
**Numerals in text.**

Two kinds of numeral are read from text that holds nothing else:

* `Numeral.natural?`: an optional plus sign and decimal digits, below `2 ^ 64`;
* `Numeral.real?`: an optional sign, then digits with an optional point and exponent, or the words
  for infinity and not-a-number in any case; the result is the nearest binary64 datum.

`Numeral.integer?` reads a signed integer of sixty-four bits.
-/

import Schemata.Numeral.Binary64

namespace Schemata.Numeral

/-- The value of a run of decimal digits. -/
def digitsValue (digits : List Char) : Nat :=
  digits.foldl (fun value digit => value * 10 + (digit.toNat - '0'.toNat)) 0

/-- Whether the characters are one or more decimal digits. -/
def isDigits (text : List Char) : Bool :=
  !text.isEmpty && text.all Char.isDigit

/-- Split a leading sign off; true stands for a minus. -/
def splitSign : List Char → Bool × List Char
  | '-' :: rest => (true, rest)
  | '+' :: rest => (false, rest)
  | text => (false, text)

/-- **A natural number below `2 ^ 64`**: digits, and a plus sign if any. -/
def natural? (text : String) : Option Nat :=
  let digits := match text.toList with
    | '+' :: rest => rest
    | all => all
  if isDigits digits ∧ digitsValue digits < Nat.pow 2 64 then some (digitsValue digits) else none

/-- A signed integer of sixty-four bits. -/
def integer? (text : String) : Option Int :=
  let (negative, digits) := splitSign text.toList
  if isDigits digits then
    let value : Int := if negative then -(digitsValue digits : Int) else digitsValue digits
    if -(Nat.pow 2 63 : Int) ≤ value ∧ value < Nat.pow 2 63 then some value else none
  else none

/-- The exponent part of a real numeral: nothing, or a mark, a sign and digits. -/
def exponent? : List Char → Option Int
  | [] => some 0
  | mark :: rest =>
    let (negative, digits) := splitSign rest
    if (mark = 'e' ∨ mark = 'E') ∧ isDigits digits then
      some (if negative then -(digitsValue digits : Int) else digitsValue digits)
    else none

/-- The part of a real numeral after its sign, when it is written with digits. -/
def unsignedReal? (negative : Bool) (text : List Char) : Option Binary64.Datum :=
  let whole := text.takeWhile Char.isDigit
  let afterWhole := text.dropWhile Char.isDigit
  let (fraction, rest) := match afterWhole with
    | '.' :: more => (more.takeWhile Char.isDigit, more.dropWhile Char.isDigit)
    | _ => ([], afterWhole)
  if whole.isEmpty ∧ fraction.isEmpty then none
  else (exponent? rest).map fun exponent =>
    .ofDecimal negative (digitsValue (whole ++ fraction)) (exponent - fraction.length)

/-- **A real number**, as the nearest binary64 datum. -/
def real? (text : String) : Option Binary64.Datum :=
  let (negative, rest) := splitSign text.toList
  let word := String.ofList (rest.map Char.toLower)
  if word = "inf" ∨ word = "infinity" then some (.infinite negative)
  else if word = "nan" then some .nan
  else unsignedReal? negative rest

end Schemata.Numeral
