/-
**The flags of a pattern text.**

Flags are switched inside a group by letters, with a hyphen before those that are switched off. Each
letter and the hyphen may stand once, and no hyphen may stand last.
-/

import Schemata.Unicode.Blank

namespace Schemata.Pattern

/-- How the text of a pattern is read. `ascii` restricts classes to ASCII, `pairs` counts `\r\n` as
one line break, and `verbose` allows blanks and comments between the parts. -/
structure Flags where
  ignoreCase : Bool
  multiLine : Bool
  dotAll : Bool
  ascii : Bool
  pairs : Bool
  verbose : Bool
deriving DecidableEq, Repr

namespace Flags

/-- The flags at the start of a text. -/
def initial : Flags := ⟨false, false, false, false, false, false⟩

/-- Switch the flag of a letter. Greed does not change what matches. -/
def switch? (flags : Flags) (letter : Char) (on : Bool) : Option Flags :=
  if letter = 'i' then some { flags with ignoreCase := on }
  else if letter = 'm' then some { flags with multiLine := on }
  else if letter = 's' then some { flags with dotAll := on }
  else if letter = 'u' then some { flags with ascii := !on }
  else if letter = 'R' then some { flags with pairs := on }
  else if letter = 'x' then some { flags with verbose := on }
  else if letter = 'U' then some flags
  else none

/-- **The letters of a group up to its colon or bracket**, which is answered with the flags and the
letters that were read. -/
def read? (flags : Flags) (seen : List Char) :
    List Char → Option (Flags × List Char × Char × List Char)
  | [] => none
  | c :: rest =>
    if c = ':' ∨ c = ')' then
      if seen.head? = some '-' then none else some (flags, seen, c, rest)
    else if c ∈ seen then none
    else if c = '-' then read? flags ('-' :: seen) rest
    else do
      let switched ← flags.switch? c (!seen.contains '-')
      read? switched (c :: seen) rest

end Flags

/-- Drop blanks and comments; `inComment` says that a comment is being dropped. -/
def skipVerbose (inComment : Bool) : List Char → List Char
  | [] => []
  | c :: rest =>
    if inComment then skipVerbose (c ≠ '\n') rest
    else if Unicode.isBlank c then skipVerbose false rest
    else if c = '#' then skipVerbose true rest
    else c :: rest

/-- Drop what may stand between the parts of a pattern. -/
def skip (flags : Flags) (text : List Char) : List Char :=
  if flags.verbose then skipVerbose false text else text

end Schemata.Pattern
