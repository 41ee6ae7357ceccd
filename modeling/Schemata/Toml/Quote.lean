/-
**Writing TOML strings.**

A string is written in the plainest form that can hold it: between double quotes without escapes,
between single quotes, then over several lines between three double quotes or three single quotes,
and between double quotes with escapes at last.
-/

import Schemata.Numeral.Hexadecimal

namespace Schemata.Toml

/-- Whether a character cannot stand in a string without an escape. Tabs and line feeds can. -/
def isControl (c : Char) : Bool :=
  (c.toNat < 0x20 && c ≠ '\t' && c ≠ '\n') || c.toNat = 0x7F

/-- The length of the longest run of a character; `current` is the length of the run before. -/
def longestRun (wanted : Char) (current : Nat) : List Char → Nat
  | [] => current
  | c :: rest =>
    if c = wanted then longestRun wanted (current + 1) rest
    else max current (longestRun wanted 0 rest)

/-- A character with an escape where it needs one. -/
def escapeChar (severalLines : Bool) (c : Char) : List Char :=
  if c = '\x08' then ['\\', 'b']
  else if c = '\t' then ['\\', 't']
  else if c = '\n' then (if severalLines then ['\n'] else ['\\', 'n'])
  else if c = '\x0c' then ['\\', 'f']
  else if c = '\r' then ['\\', 'r']
  else if c = '\\' then ['\\', '\\']
  else if isControl c then
    ['\\', 'u', '0', '0', Hexadecimal.digit true (c.toNat / 16),
      Hexadecimal.digit true (c.toNat % 16)]
  else [c]

/-- Characters with escapes. Of a run of double quotes, those behind the first `allowed` are
escaped, and the count starts again behind an escape; `run` counts the quotes before. -/
def escape (severalLines : Bool) (allowed run : Nat) : List Char → List Char
  | [] => []
  | c :: rest =>
    if c = '"' then
      if run < allowed then c :: escape severalLines allowed (run + 1) rest
      else '\\' :: '"' :: escape severalLines allowed 0 rest
    else escapeChar severalLines c ++ escape severalLines allowed 0 rest

/-- **The text of a string.** -/
def quote (text : String) : String :=
  let characters := text.toList
  let controls := characters.any isControl
  let escapes := characters.contains '\\'
  let breaks := characters.contains '\n'
  let doubles := longestRun '"' 0 characters
  let singles := longestRun '\'' 0 characters
  let opening := if breaks then "\n" else ""
  if !controls && !escapes && !breaks && doubles = 0 then
    "\"" ++ String.ofList (escape false 0 0 characters) ++ "\""
  else if !controls && !breaks && singles = 0 then "'" ++ text ++ "'"
  else if !controls && !escapes && doubles ≤ 2 then
    "\"\"\"" ++ opening ++ String.ofList (escape true 2 0 characters) ++ "\"\"\""
  else if !controls && singles ≤ 2 then "'''" ++ opening ++ text ++ "'''"
  else if breaks then
    "\"\"\"" ++ opening ++ String.ofList (escape true 2 0 characters) ++ "\"\"\""
  else "\"" ++ String.ofList (escape false 0 0 characters) ++ "\""

end Schemata.Toml
