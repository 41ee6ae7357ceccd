/-
**Hexadecimal digits**, and characters that are spelled by their numbers.
-/

import Schemata.Read

namespace Schemata.Hexadecimal

/-- Whether a character is a hexadecimal digit. -/
def isDigit (c : Char) : Bool :=
  c.isDigit || ('a' ≤ c && c ≤ 'f') || ('A' ≤ c && c ≤ 'F')

/-- The value of a digit; other characters count as zero. -/
def digitValue (c : Char) : Nat :=
  if c.isDigit then c.toNat - '0'.toNat
  else if 'a' ≤ c ∧ c ≤ 'f' then c.toNat - 'a'.toNat + 10
  else if 'A' ≤ c ∧ c ≤ 'F' then c.toNat - 'A'.toNat + 10
  else 0

/-- The value of some digits. -/
def value (digits : List Char) : Nat :=
  digits.foldl (fun value digit => value * 16 + digitValue digit) 0

/-- The value of exactly `count` digits. -/
def read (count : Nat) : Read Nat :=
  value <$> Read.fixed count isDigit

/-- The digit of a number below sixteen, with a small or a capital letter. -/
def digit (capital : Bool) (value : Nat) : Char :=
  Char.ofNat
    (if value < 10 then '0'.toNat + value
    else (if capital then 'A'.toNat else 'a'.toNat) + (value - 10))

/-- **The character with a number**, unless the number is that of none. -/
def character? (point : Nat) : Option Char :=
  if point < 0xD800 ∨ (0xDFFF < point ∧ point ≤ 0x10FFFF) then some (Char.ofNat point) else none

end Schemata.Hexadecimal
