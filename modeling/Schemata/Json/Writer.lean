/-
**Writing JSON text.**

Members are written in the order in which the object lists them.

* `Json.compact` writes no blanks;
* `Json.pretty` puts each item and member on a line of its own, two blanks deeper than its
  container, and leaves empty containers closed up.
-/

import Schemata.Json.Value
import Schemata.Numeral.Hexadecimal

namespace Schemata.Json

/-- A character inside a string. -/
def escapeChar (c : Char) : List Char :=
  if c = '"' then ['\\', '"']
  else if c = '\\' then ['\\', '\\']
  else if c = '\x08' then ['\\', 'b']
  else if c = '\x0c' then ['\\', 'f']
  else if c = '\n' then ['\\', 'n']
  else if c = '\r' then ['\\', 'r']
  else if c = '\t' then ['\\', 't']
  else if c.toNat < 0x20 then
    ['\\', 'u', '0', '0', Hexadecimal.digit false (c.toNat / 16),
      Hexadecimal.digit false (c.toNat % 16)]
  else [c]

/-- A string with its quotes. -/
def quote (text : String) : String :=
  "\"" ++ String.ofList (text.toList.flatMap escapeChar) ++ "\""

mutual

/-- **The text of a value without blanks.** -/
def compact : Json → String
  | .null => "null"
  | .bool flag => if flag then "true" else "false"
  | .number n => n.render
  | .string text => quote text
  | .array items => "[" ++ ",".intercalate (compactItems items) ++ "]"
  | .object members => "\x7b" ++ ",".intercalate (compactMembers members) ++ "\x7d"

/-- The texts of items. -/
def compactItems : List Json → List String
  | [] => []
  | item :: rest => item.compact :: compactItems rest

/-- The texts of members. -/
def compactMembers : List (String × Json) → List String
  | [] => []
  | (name, value) :: rest => (quote name ++ ":" ++ value.compact) :: compactMembers rest

end

/-- A line break and the blanks of a nesting depth. -/
def newline (depth : Nat) : String :=
  String.ofList ('\n' :: List.replicate (2 * depth) ' ')

mutual

/-- The text of a value, laid out in lines, inside `depth` containers. -/
def prettyAt (depth : Nat) : Json → String
  | .array [] => "[]"
  | .array items => "[" ++ ",".intercalate (prettyItems (depth + 1) items) ++ newline depth ++ "]"
  | .object [] => "\x7b\x7d"
  | .object members =>
    "\x7b" ++ ",".intercalate (prettyMembers (depth + 1) members) ++ newline depth ++ "\x7d"
  | .null => "null"
  | .bool flag => if flag then "true" else "false"
  | .number n => n.render
  | .string text => quote text

/-- The texts of items, each on a line of its own. -/
def prettyItems (depth : Nat) : List Json → List String
  | [] => []
  | item :: rest => (newline depth ++ item.prettyAt depth) :: prettyItems depth rest

/-- The texts of members, each on a line of its own. -/
def prettyMembers (depth : Nat) : List (String × Json) → List String
  | [] => []
  | (name, value) :: rest =>
    (newline depth ++ quote name ++ ": " ++ value.prettyAt depth) :: prettyMembers depth rest

end

/-- **The text of a value, laid out in lines.** -/
def pretty (value : Json) : String :=
  value.prettyAt 0

end Schemata.Json
