/-
**Reading JSON text.**

`Json.parse` reads one value with nothing but blanks around it.

* A number without fraction and exponent that fits sixty-four bits is an integer; every other number
  is the nearest binary64 number, and is refused when that is not finite. `-0` is the float.
* The last member of a name wins.
* A container inside `Json.nestingLimit` others is refused.
* `\u` escapes must form whole characters: a lone half of a surrogate pair is refused.
-/

import Schemata.Json.Value
import Schemata.Numeral.Hexadecimal
import Schemata.Numeral.Reading

namespace Schemata.Json

/-- How many containers may be open at once. -/
def nestingLimit : Nat := 127

/-- Blank characters between lexical parts. -/
def isBlank (c : Char) : Bool :=
  c = ' ' || c = '\n' || c = '\t' || c = '\r'

/-- Drop the blanks in front. -/
def skipBlanks (text : List Char) : List Char :=
  text.dropWhile isBlank

/-! ### Strings -/

/-- A character written as one or two `\u` units, the first `\u` being read already. -/
def readUnits : Read Char := fun text => do
  let (high, rest) ← Hexadecimal.read 4 text
  if 0xD800 ≤ high ∧ high < 0xDC00 then
    match rest with
    | '\\' :: 'u' :: more =>
      let (low, rest) ← Hexadecimal.read 4 more
      if 0xDC00 ≤ low ∧ low < 0xE000 then
        some (Char.ofNat (0x10000 + (high - 0xD800) * 0x400 + (low - 0xDC00)), rest)
      else none
    | _ => none
  else if 0xDC00 ≤ high ∧ high < 0xE000 then none
  else some (Char.ofNat high, rest)

/-- The character that an escape stands for, its backslash being read already. -/
def readEscape : Read Char
  | '"' :: rest => some ('"', rest)
  | '\\' :: rest => some ('\\', rest)
  | '/' :: rest => some ('/', rest)
  | 'b' :: rest => some ('\x08', rest)
  | 'f' :: rest => some ('\x0c', rest)
  | 'n' :: rest => some ('\n', rest)
  | 'r' :: rest => some ('\r', rest)
  | 't' :: rest => some ('\t', rest)
  | 'u' :: rest => readUnits rest
  | _ => none

/-- The characters of a string up to its closing quote; `fuel` bounds their number. -/
def readChars : Nat → List Char → Read (List Char)
  | _, taken, '"' :: rest => some (taken.reverse, rest)
  | fuel + 1, taken, '\\' :: rest => do
    let (c, rest) ← readEscape rest
    readChars fuel (c :: taken) rest
  | fuel + 1, taken, c :: rest =>
    if c.toNat < 0x20 then none else readChars fuel (c :: taken) rest
  | _, _, _ => none

/-- A string of at most `limit` characters, its opening quote being read already. -/
def readString (limit : Nat) : Read String := fun text => do
  let (characters, rest) ← readChars limit [] text
  some (String.ofList characters, rest)

/-! ### Numbers -/

/-- The digits of a fraction, if there is a point. -/
def readFraction : Read (Option (List Char))
  | '.' :: rest =>
    let digits := rest.takeWhile Char.isDigit
    if digits.isEmpty then none else some (some digits, rest.dropWhile Char.isDigit)
  | rest => some (none, rest)

/-- An exponent, if there is a mark. -/
def readExponent : Read (Option Int)
  | mark :: rest =>
    if mark = 'e' ∨ mark = 'E' then
      let (negative, rest) := Numeral.splitSign rest
      let digits := rest.takeWhile Char.isDigit
      if digits.isEmpty then none
      else
        let size : Int := Numeral.digitsValue digits
        some (some (if negative then -size else size), rest.dropWhile Char.isDigit)
    else some (none, mark :: rest)
  | [] => some (none, [])

/-- **A number.** -/
def readNumber : Read Json := fun text => do
  let (negative, unsigned) := match text with
    | '-' :: rest => (true, rest)
    | _ => (false, text)
  let whole := unsigned.takeWhile Char.isDigit
  let rest := unsigned.dropWhile Char.isDigit
  if whole.isEmpty ∨ (whole.head? = some '0' ∧ 1 < whole.length) then none
  else
    let (fraction, rest) ← readFraction rest
    let (exponent, rest) ← readExponent rest
    let size := Numeral.digitsValue whole
    let value : Int := if negative then -(size : Int) else size
    if fraction.isNone ∧ exponent.isNone ∧ Fits value ∧ ¬ (negative ∧ size = 0) then
      some (ofInt value, rest)
    else
      let decimals := fraction.getD []
      let digits := Numeral.digitsValue (whole ++ decimals)
      let x ← (Binary64.Datum.ofDecimal negative digits
        (exponent.getD 0 - decimals.length)).finite?
      some (.number (.float x), rest)

/-! ### Values -/

/-- The rest of a list of parts that are separated by commas and closed by `close`; the list is not
empty, and `fuel` bounds its length. -/
def readParts {α : Type} (part : Read α) (close : Char) : Nat → Read (List α)
  | 0, _ => none
  | fuel + 1, text => do
    let (first, rest) ← part text
    match skipBlanks rest with
    | ',' :: more =>
      let (others, rest) ← readParts part close fuel more
      some (first :: others, rest)
    | c :: more => if c = close then some ([first], more) else none
    | [] => none

/-- A list of at most `limit` parts up to `close`, its opening bracket being read already. -/
def readList {α : Type} (limit : Nat) (part : Read α) (close : Char) : Read (List α) := fun text =>
  match skipBlanks text with
  | [] => none
  | c :: rest => if c = close then some ([], rest) else readParts part close limit text

/-- A member of an object: a name, a colon and a value. -/
def readMember (limit : Nat) (value : Read Json) : Read (String × Json) := fun text =>
  match skipBlanks text with
  | '"' :: rest => do
    let (name, rest) ← readString limit rest
    match skipBlanks rest with
    | ':' :: rest =>
      let (content, rest) ← value rest
      some ((name, content), rest)
    | _ => none
  | _ => none

/-- The rest of a text after a word that stands at its front. -/
def afterWord? (word : String) (text : List Char) : Option (List Char) :=
  if word.toList.isPrefixOf text then some (text.drop word.length) else none

/-- A value inside which `depth` more containers may be opened. `limit` bounds the lengths of
strings and of containers. -/
def readValue (limit depth : Nat) : Read Json := fun text =>
  match skipBlanks text with
  | 'n' :: rest => (afterWord? "ull" rest).map (.null, ·)
  | 't' :: rest => (afterWord? "rue" rest).map (.bool true, ·)
  | 'f' :: rest => (afterWord? "alse" rest).map (.bool false, ·)
  | '"' :: rest => (readString limit rest).map fun (text, rest) => (.string text, rest)
  | '[' :: rest => match depth with
    | 0 => none
    | inner + 1 =>
      (readList limit (readValue limit inner) ']' rest).map fun (items, rest) =>
        (.array items, rest)
  | '\x7b' :: rest => match depth with
    | 0 => none
    | inner + 1 =>
      (readList limit (readMember limit (readValue limit inner)) '\x7d' rest).map
        fun (members, rest) =>
        (.object (Dictionary.ofEntries members), rest)
  | other => readNumber other

/-- **The value of a text**, or nothing if the text is not JSON. Nothing in a text is longer than
it. -/
def parse (text : String) : Option Json := do
  let characters := text.toList
  let (value, rest) ← readValue (characters.length + 1) nestingLimit characters
  if (skipBlanks rest).isEmpty then some value else none

end Schemata.Json
