/-
**Numbers, dates and times of TOML.**

* An integer is decimal with an optional sign, or hexadecimal, octal or binary without one, and fits
  sixty-four bits. Single underscores may stand between its digits.
* A float has a fraction or an exponent, or is a word for infinity or for no number. A float that is
  too large is refused.
* A date, a time or both are brought to one form: `T` between them, and a fraction of at most nine
  digits without zeros at its end.
-/

import Schemata.Calendar.Instant
import Schemata.Toml.Table
import Schemata.Toml.Text

namespace Schemata.Toml

/-! ### Numbers -/

/-- Digits behind the first one, with single underscores between them, which are dropped. -/
def takeDigits (isDigit : Char → Bool) : List Char → List Char × List Char
  | [] => ([], [])
  | '_' :: c :: rest =>
    if isDigit c then
      let (digits, rest) := takeDigits isDigit rest
      (c :: digits, rest)
    else ([], '_' :: c :: rest)
  | c :: rest =>
    if isDigit c then
      let (digits, rest) := takeDigits isDigit rest
      (c :: digits, rest)
    else ([], c :: rest)

/-- One or more digits. -/
def readDigits (isDigit : Char → Bool) : Read (List Char) := do
  let first ← Read.satisfying isDigit
  let others ← fun text => some (takeDigits isDigit text)
  pure (first :: others)

/-- The integer of some digits to a base, if it fits. -/
def integerOf (base : Nat) (negative : Bool) (digits : List Char) : Read Value :=
  let size := digits.foldl (fun value digit => value * base + Hexadecimal.digitValue digit) 0
  let value : Int := if negative then -(size : Int) else size
  if -(Nat.pow 2 63 : Int) ≤ value ∧ value < Nat.pow 2 63 then
    pure (.integer value) else Read.refuse

/-- The sign of a number, if there is one; true stands for a minus. -/
def readSign : Read (Option Bool) := do
  if ← Read.accepts ['-'] then pure (some true)
  else if ← Read.accepts ['+'] then pure (some false)
  else pure none

/-- An integer to a base other than ten, if its mark stands at the front. -/
def readMarked? : Read (Option Value) := do
  if ← Read.accepts ['0', 'x'] then
    some <$> (readDigits Hexadecimal.isDigit >>= integerOf 16 false)
  else if ← Read.accepts ['0', 'o'] then
    some <$> (readDigits (fun c => '0' ≤ c && c ≤ '7') >>= integerOf 8 false)
  else if ← Read.accepts ['0', 'b'] then
    some <$> (readDigits (fun c => c = '0' || c = '1') >>= integerOf 2 false)
  else pure none

/-- The whole part of a decimal number, without a zero in front. -/
def readWhole : Read (List Char) := do
  let digits ← readDigits Char.isDigit
  if digits.head? = some '0' ∧ 1 < digits.length then Read.refuse else pure digits

/-- The digits of a fraction, if there is a point. -/
def readFraction : Read (Option (List Char)) := do
  if ← Read.accepts ['.'] then some <$> readDigits Char.isDigit else pure none

/-- An exponent, if there is a mark. -/
def readExponent : Read (Option Int) := do
  match ← Read.optional none (some <$> Read.oneOf ['e', 'E']) with
  | none => pure none
  | some _ =>
    let sign ← readSign
    let digits ← readDigits Char.isDigit
    let size : Int := Numeral.digitsValue digits
    pure (some (if sign = some true then -size else size))

/-- The float of a datum, unless it is too large. -/
def floatOf (datum : Binary64.Datum) : Read Value :=
  if datum = .infinite false then Read.refuse else pure (.float datum)

/-- A decimal number behind its sign. -/
def readDecimal (negative : Bool) : Read Value := do
  if ← Read.accepts ['i', 'n', 'f'] then pure (.float (.infinite negative))
  else if ← Read.accepts ['n', 'a', 'n'] then pure (.float .nan)
  else
    let whole ← readWhole
    let fraction ← readFraction
    let exponent ← readExponent
    if fraction.isNone ∧ exponent.isNone then integerOf 10 negative whole
    else
      let decimals := fraction.getD []
      floatOf (.ofDecimal negative (Numeral.digitsValue (whole ++ decimals))
        (exponent.getD 0 - decimals.length))

/-- **A number.** -/
def readNumber : Read Value := do
  match ← readMarked? with
  | some value => pure value
  | none =>
    let sign ← readSign
    readDecimal (sign = some true)

/-! ### Dates and times -/

/-- Two digits of a number that is at most `greatest`. -/
def readField (greatest : Nat) : Read String := do
  let digits ← Read.fixed 2 Char.isDigit
  if Numeral.digitsValue digits ≤ greatest then pure (String.ofList digits) else Read.refuse

/-- The fraction of a second with its point; nothing is left of zeros. -/
def readSecondFraction : Read String := do
  if ← Read.accepts ['.'] then
    let digits ← Read.run Char.isDigit
    if digits.isEmpty then Read.refuse
    else
      let kept := ((digits.take 9).reverse.dropWhile (· = '0')).reverse
      pure (if kept.isEmpty then "" else "." ++ String.ofList kept)
  else pure ""

/-- A time. -/
def readTime : Read String := do
  let hour ← readField 23
  Read.exactly [':']
  let minute ← readField 59
  Read.exactly [':']
  let second ← readField 60
  let fraction ← readSecondFraction
  pure (hour ++ ":" ++ minute ++ ":" ++ second ++ fraction)

/-- An offset behind its sign; no offset has a minus. -/
def readOffset (sign : Char) : Read String := do
  let hour ← readField 23
  Read.exactly [':']
  let minute ← readField 59
  let isZero := hour = "00" ∧ minute = "00"
  pure ((if isZero then "+" else sign.toString) ++ hour ++ ":" ++ minute)

/-- An offset from universal time, if there is one. -/
def readOffset? : Read String := do
  match ← Read.optional none (some <$> Read.oneOf ['Z', 'z', '+', '-']) with
  | none => pure ""
  | some sign => if sign = 'Z' ∨ sign = 'z' then pure "Z" else readOffset sign

/-- A date. -/
def readDate : Read String := fun text => do
  let (_, rest) ← Calendar.readFixedDate text
  some (String.ofList (text.take 10), rest)

/-- **A date, a time or both.** -/
def readMoment : Read Value := fun text =>
  match readDate text with
  | none => (readTime text).map fun (time, rest) => (.moment time, rest)
  | some (date, rest) =>
    let timed : Read String := do
      let _ ← Read.oneOf ['T', 't', ' ']
      let time ← readTime
      let offset ← readOffset?
      pure ("T" ++ time ++ offset)
    match timed rest with
    | some (time, rest) => some (.moment (date ++ time), rest)
    | none => some (.moment date, rest)

end Schemata.Toml
