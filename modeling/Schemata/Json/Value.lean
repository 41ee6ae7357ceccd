/-
**JSON values.**

A number is an integer of at most sixty-four bits, signed or unsigned, or a finite binary64 number;
an object lists its members by increasing name.

* `Number.datum` is the binary64 datum nearest to a number, by which numbers are compared;
* `Json.ofDatum` is the number that a computed datum becomes: an integer if it is integral and below
  `2 ^ 53` in size, and null if it is not finite;
* `Json.depth` counts the containers on the longest way into a value.
-/

import Schemata.Dictionary
import Schemata.Numeral.Shortest

namespace Schemata

/-- Whether an integer fits sixty-four bits, signed or unsigned. -/
def Json.Fits (value : Int) : Prop :=
  -(Nat.pow 2 63 : Int) ≤ value ∧ value < Nat.pow 2 64

instance Json.decidableFits (value : Int) : Decidable (Json.Fits value) :=
  inferInstanceAs (Decidable (_ ∧ _))

/-- An integer of at most sixty-four bits, signed or unsigned. -/
structure Json.Integer where
  value : Int
  fits : Json.Fits value
deriving DecidableEq, Repr

/-- A number: an exact integer, or a binary64 number. -/
inductive Json.Number where
  | integer (n : Json.Integer)
  | float (x : Binary64)
deriving DecidableEq, Repr

/-- A JSON value. -/
inductive Json where
  | null
  | bool (flag : Bool)
  | number (n : Json.Number)
  | string (text : String)
  | array (items : List Json)
  | object (members : List (String × Json))
deriving Inhabited

namespace Json

/-! ### Numbers -/

/-- Floats show a decimal exponent from `-5` to `15` positionally and keep their fraction. -/
def floatLayout : Decimal.Layout := ⟨-5, 15, true⟩

/-- **The binary64 datum nearest to a number.** -/
def Number.datum : Number → Binary64.Datum
  | .integer n => .ofInt n.value
  | .float x => .finite x

/-- The text of a number. -/
def Number.render : Number → String
  | .integer n => toString n.value
  | .float x => x.render floatLayout

/-- The number of an integer: exact if it fits, else the nearest binary64 number. -/
def ofInt (value : Int) : Json :=
  if fits : Fits value then .number (.integer ⟨value, fits⟩)
  else match (Binary64.Datum.ofInt value).finite? with
    | some x => .number (.float x)
    | none => .null

/-- The number of a natural number. -/
def ofNat (value : Nat) : Json :=
  ofInt value

/-- **The number of a computed datum**: an integer if it is integral and below `2 ^ 53` in size. -/
def ofDatum : Binary64.Datum → Json
  | .finite x => match x.safeInt? with
    | some value => ofInt value
    | none => .number (.float x)
  | _ => .null

/-! ### Views -/

/-- Whether a value is null. -/
def isNull : Json → Bool
  | .null => true
  | _ => false

/-- The member of an object under a name. -/
def member? (name : String) : Json → Option Json
  | .object members => Dictionary.find? name members
  | _ => none

/-- The text of a string. -/
def text? : Json → Option String
  | .string text => some text
  | _ => none

/-- The flag of a boolean. -/
def flag? : Json → Option Bool
  | .bool flag => some flag
  | _ => none

/-- The items of an array. -/
def items? : Json → Option (List Json)
  | .array items => some items
  | _ => none

/-- The natural number of an integer. -/
def natural? : Json → Option Nat
  | .number (.integer n) => if 0 ≤ n.value then some n.value.toNat else none
  | _ => none

/-- The binary64 datum nearest to a number. -/
def datum? : Json → Option Binary64.Datum
  | .number n => some n.datum
  | _ => none

mutual

/-- **Nesting depth**: zero for scalars, and one more than the deepest member for containers. -/
def depth : Json → Nat
  | .array items => 1 + depthItems items
  | .object members => 1 + depthMembers members
  | _ => 0

/-- The depth of the deepest of some items. -/
def depthItems : List Json → Nat
  | [] => 0
  | item :: rest => max item.depth (depthItems rest)

/-- The depth of the deepest of some members. -/
def depthMembers : List (String × Json) → Nat
  | [] => 0
  | (_, value) :: rest => max value.depth (depthMembers rest)

end

end Json

end Schemata
