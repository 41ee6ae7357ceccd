/-
**Instants in text, as milliseconds since the start of 1970.**

Two forms are read, each with nothing around it:

* `readTimestamp`: a date, a time and an offset, `2024-01-31T23:59:60.5+01:00`, every field of a
  fixed width except the fraction of the second, of which nine digits count; milliseconds are cut,
  not rounded, and second `60` is the second after;
* `readDay`: a date alone, its numbers of any width and each with white space in front, which stands
  for its midnight; a year of more than four digits needs a sign.
-/

import Schemata.Calendar.Date
import Schemata.Numeral.Reading
import Schemata.Read
import Schemata.Unicode.Blank

namespace Schemata.Calendar

/-- Exactly `count` digits. -/
def readFixed (count : Nat) : Read Nat :=
  Numeral.digitsValue <$> Read.fixed count Char.isDigit

/-- At least one digit, and at most `limit` of them. -/
def readDigits (limit : Option Nat) : Read Nat := fun text =>
  let run := text.takeWhile Char.isDigit
  let digits := match limit with
    | some limit => run.take limit
    | none => run
  if digits.isEmpty then none else some (Numeral.digitsValue digits, text.drop digits.length)

/-! ### Timestamps -/

/-- The fraction of a second in milliseconds, if there is a point. -/
def readMilliseconds : Read Nat := do
  if ← Read.accepts ['.'] then
    let digits ← Read.run Char.isDigit
    if digits.isEmpty then Read.refuse
    else pure (Numeral.digitsValue ((digits ++ List.replicate 3 '0').take 3))
  else pure 0

/-- An offset from universal time, in minutes. -/
def readOffset : Read Int := do
  let sign ← Read.oneOf ['Z', 'z', '+', '-', '\u2212']
  if sign = 'Z' ∨ sign = 'z' then pure 0
  else
    let hours ← readFixed 2
    Read.exactly [':']
    let minutes ← readFixed 2
    if 23 < hours ∨ 59 < minutes then Read.refuse
    else
      let size : Int := hours * 60 + minutes
      pure (if sign = '+' then size else -size)

/-- A date with fields of a fixed width. -/
def readFixedDate : Read Date := do
  let year ← readFixed 4
  Read.exactly ['-']
  let month ← readFixed 2
  Read.exactly ['-']
  let day ← readFixed 2
  let date : Date := ⟨year, month, day⟩
  if date.isValid then pure date else Read.refuse

/-- **A date, a time and an offset.** -/
def readTimestamp : Read Int := do
  let date ← readFixedDate
  let _ ← Read.oneOf ['T', 't', ' ']
  let hour ← readFixed 2
  Read.exactly [':']
  let minute ← readFixed 2
  Read.exactly [':']
  let second ← readFixed 2
  let milliseconds ← readMilliseconds
  let offset ← readOffset
  if hour ≤ 23 ∧ minute ≤ 59 ∧ second ≤ 60 then
    let minutes : Int := (date.dayNumber * 24 + hour) * 60 + minute - offset
    pure ((minutes * 60 + second) * 1000 + milliseconds)
  else Read.refuse

/-! ### Days -/

/-- A year: at most four digits, or a sign and any number of digits. -/
def readYear : Read Int := do
  if ← Read.accepts ['+'] then
    let size ← readDigits none
    pure size
  else if ← Read.accepts ['-'] then
    let size ← readDigits none
    pure (-(size : Int))
  else
    let size ← readDigits (some 4)
    pure size

/-- **A date alone**, which stands for its midnight. -/
def readDay : Read Int := do
  let _ ← Read.run Unicode.isBlank
  let year ← readYear
  Read.exactly ['-']
  let _ ← Read.run Unicode.isBlank
  let month ← readDigits (some 2)
  Read.exactly ['-']
  let _ ← Read.run Unicode.isBlank
  let day ← readDigits (some 2)
  let date : Date := ⟨year, month, day⟩
  if date.isValid then pure (date.dayNumber * 86400000) else Read.refuse

/-- **The instant that a text stands for**, in milliseconds since the start of 1970. -/
def readInstant? (text : String) : Option Int :=
  (readTimestamp.whole? text).orElse fun _ => readDay.whole? text

end Schemata.Calendar
