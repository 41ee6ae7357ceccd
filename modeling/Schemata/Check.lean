/-
**Checks on single values.**

A type check answers the value, brought to its type where that is possible, or nothing:

* `Check.number` and `Check.date` bring texts to numbers, `Check.boolean` brings numbers and texts
  to truth values, and `Check.string` and `Check.integer` bring nothing;
* `Check.equals`, `Check.compares`, `Check.isOneOf` and `Check.matchesText` relate values. Numbers
  are related by their nearest binary64 data;
* `Primitive` names the type checks of the schema language.
-/

import Schemata.Calendar.Instant
import Schemata.Json.Value
import Schemata.Pattern.Basic
import Schemata.Relation

namespace Schemata

namespace Check

/-! ### Types -/

/-- **Numbers**, numerals with white space around them, and truth values as `0` and `1`. -/
def number : Json → Option Json
  | .number n => some (.number n)
  | .bool flag => some (.ofNat flag.toNat)
  | .string text => do
    let datum ← Numeral.real? (Unicode.trim text)
    let x ← datum.finite?
    some (.ofDatum (.finite x))
  | _ => none

/-- Strings. -/
def string : Json → Option Json
  | .string text => some (.string text)
  | _ => none

/-- **Truth values**, and zero and one as numbers or texts. -/
def boolean : Json → Option Json
  | .bool flag => some (.bool flag)
  | .number n =>
    if n.datum.compare? (.ofInt 0) = some .eq then some (.bool false)
    else if n.datum.compare? (.ofInt 1) = some .eq then some (.bool true)
    else none
  | .string text =>
    if text = "0" ∨ text = "false" then some (.bool false)
    else if text = "1" ∨ text = "true" then some (.bool true)
    else none
  | _ => none

/-- **Numbers without a fractional part**, which stay as they are. -/
def integer : Json → Option Json
  | .number (.integer n) => some (.number (.integer n))
  | .number (.float x) => if x.isIntegral then some (.number (.float x)) else none
  | _ => none

/-- **Instants in milliseconds**, from numbers and from the texts of dates. -/
def date : Json → Option Json
  | .number n => n.datum.finite?.map fun x => .ofDatum (.finite x)
  | .string text => (Calendar.readInstant? text).map .ofInt
  | _ => none

/-- Null and the empty text. -/
def isEmpty : Json → Bool
  | .null => true
  | .string text => text.isEmpty
  | _ => false

/-! ### Measures -/

/-- The number of characters of a text or of items of an array. -/
def length? : Json → Option Nat
  | .string text => some text.length
  | .array items => some items.length
  | _ => none

/-- The text of a number; an integral float below `2 ^ 53` in size is written as an integer. -/
def numberText : Json.Number → String
  | .integer n => toString n.value
  | .float x => match x.safeInt? with
    | some value => toString value
    | none => Json.Number.render (.float x)

/-- **The text of a scalar.** -/
def text? : Json → Option String
  | .string text => some text
  | .bool flag => some (if flag then "true" else "false")
  | .number n => some (numberText n)
  | _ => none

/-! ### Relations -/

/-- **Equality of scalars of one type.** Arrays and objects equal nothing. -/
def equals : Json → Json → Bool
  | .null, .null => true
  | .bool first, .bool second => first = second
  | .string first, .string second => first = second
  | .number first, .number second => first.datum.compare? second.datum = some .eq
  | _, _ => false

/-- Whether a value equals one of the candidates; null does not. -/
def isOneOf (value : Json) (candidates : List Json) : Bool :=
  !value.isNull && candidates.any (equals value)

/-- How two values of one type compare. A number also compares with the text of a date, by its
instant. -/
def order? : Json → Json → Option Ordering
  | .number first, .number second => first.datum.compare? second.datum
  | .number first, .string second => do
    let instant ← Calendar.readInstant? second
    first.datum.compare? (.ofInt instant)
  | .string first, .string second => some (compare first second)
  | .bool first, .bool second => some (compare first second)
  | _, _ => none

/-- **Whether a relation holds between a value and a bound.** Values that do not compare are in no
relation. -/
def compares (relation : Relation) (value bound : Json) : Bool :=
  match order? value bound with
  | some ordering => relation.holds ordering
  | none => false

/-- Whether a relation holds between the length of a value and a bound. -/
def comparesLength (relation : Relation) (value bound : Json) : Bool :=
  match length? value with
  | some length => compares relation (.ofNat length) bound
  | none => false

/-- Whether a pattern matches in the text of a scalar. -/
def matchesText (pattern : Pattern) (value : Json) : Bool :=
  match text? value with
  | some text => pattern.matchesIn text
  | none => false

end Check

/-! ### Named checks -/

/-- The type checks that the schema language names. -/
inductive Primitive where
  | number
  | string
  | boolean
  | integer
  | date
  | empty
deriving DecidableEq, Repr

namespace Primitive

/-- Every type check. -/
def all : List Primitive :=
  [number, string, boolean, integer, date, empty]

/-- The name of a type check. -/
def name : Primitive → String
  | number => "number"
  | string => "string"
  | boolean => "bool"
  | integer => "integer"
  | date => "date"
  | empty => "empty"

/-- The type check of a name. -/
def ofName? (name : String) : Option Primitive :=
  all.find? fun primitive => primitive.name = name

/-- **Check a value**, and bring it to the type. -/
def check : Primitive → Json → Option Json
  | number, value => Check.number value
  | string, value => Check.string value
  | boolean, value => Check.boolean value
  | integer, value => Check.integer value
  | date, value => Check.date value
  | empty, value => if Check.isEmpty value then some value else none

end Primitive

end Schemata
