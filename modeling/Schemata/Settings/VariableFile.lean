/-
**Files of variables.**

Each line of such a file gives a variable its value. A value may be quoted, over several lines if
need be, and may refer to other variables with a dollar sign. A variable that has a value already
keeps it.

* `logicalLines` cuts a text into lines, where a line break inside quotes does not count;
* `readAssignment` reads one line, and `readValue` a value;
* `load` adds the variables of a file, up to the first line that is not as it should be.
-/

import Schemata.Read
import Schemata.Settings.World
import Schemata.Unicode.Blank
import Schemata.Unicode.Property

namespace Schemata.VariableFile

/-! ### Lines -/

/-- Where a line stands between two characters. -/
inductive Place where
  | plain
  | afterBlank
  | escaped
  | weak
  | weakEscaped
  | strong
  | strongEscaped
deriving DecidableEq

/-- The place after a character outside quotes. -/
def Place.outside (c : Char) : Place :=
  if c = '\\' then .escaped
  else if c = '"' then .weak
  else if c = '\'' then .strong
  else .plain

/-- The place after a character, unless a comment starts with it. -/
def Place.next? (c : Char) : Place → Option Place
  | .plain => some (if Unicode.isBlank c && c ≠ '\n' && c ≠ '\r' then .afterBlank else .outside c)
  | .afterBlank => if c = '#' then none else some (.outside c)
  | .escaped => some .plain
  | .weak => some (if c = '\\' then .weakEscaped else if c = '"' then .plain else .weak)
  | .weakEscaped => some .weak
  | .strong => some (if c = '\\' then .strongEscaped else if c = '\'' then .plain else .strong)
  | .strongEscaped => some .strong

/-- Go over a line up to a comment. The answer holds the characters before it, and the place at the
end of the line if there is no comment. -/
def scan (place : Place) : List Char → List Char × Option Place
  | [] => ([], some place)
  | c :: rest =>
    match place.next? c with
    | none => ([], none)
    | some next =>
      let (kept, final) := scan next rest
      (c :: kept, final)

/-- Cut a text behind its line breaks; `line` holds the characters since the last one, from the last
to the first. -/
def physicalLines (line : List Char) : List Char → List (List Char)
  | [] => if line.isEmpty then [] else [line.reverse]
  | c :: rest =>
    if c = '\n' then (c :: line).reverse :: physicalLines [] rest
    else physicalLines (c :: line) rest

/-- Drop the line break at the end of a line. -/
def dropLineBreak (line : List Char) : List Char :=
  match line.reverse with
  | '\n' :: '\r' :: rest => rest.reverse
  | '\n' :: rest => rest.reverse
  | _ => line

/-- **The lines of a text.** Lines inside quotes are joined, and `none` stands for the end of a text
inside quotes. -/
def logicalLines (before : List Char) (place : Place) : List (List Char) → List (Option (List Char))
  | [] => if place = .plain then [] else [none]
  | line :: rest =>
    let whole := before ++ line
    if (whole.dropWhile Unicode.isBlank).head? = some '#' then
      some [] :: logicalLines [] .plain rest
    else
      let (kept, final) := scan place line
      match final with
      | none => some (before ++ kept) :: logicalLines [] .plain rest
      | some .plain => some (dropLineBreak whole) :: logicalLines [] .plain rest
      | some place => logicalLines whole place rest

/-! ### Values -/

/-- How the name of another variable is being read. -/
inductive Reference where
  | none
  | bare
  | braced
deriving DecidableEq

/-- What has been read of a value; characters come from the last to the first. -/
structure Draft where
  strong : Bool
  weak : Bool
  escaped : Bool
  reference : Reference
  name : List Char
  output : List Char

namespace Draft

/-- Nothing has been read. -/
def start : Draft := ⟨false, false, false, .none, [], []⟩

/-- Add a character. -/
def add (c : Char) (draft : Draft) : Draft :=
  { draft with output := c :: draft.output }

/-- Put the value of the variable that has been named. -/
def substitute (known : Variables) (draft : Draft) : Draft :=
  let value := (known.find? (String.ofList draft.name.reverse)).getD ""
  { draft with name := [], output := value.toList.reverse ++ draft.output }

/-- A character of the name of another variable, or the one behind it. -/
def refer (known : Variables) (c : Char) (draft : Draft) : Draft :=
  if Unicode.Property.alphanumeric.contains c then { draft with name := c :: draft.name }
  else if draft.reference = .braced then
    if c = '\x7d' then { draft.substitute known with reference := .none }
    else { draft with name := c :: draft.name }
  else if c = '\x7b' ∧ draft.name.isEmpty then { draft with reference := .braced }
  else
    let done := draft.substitute known
    if c = '$' then done else { done with reference := .none }.add c

/-- A character after a backslash. -/
def escape? (c : Char) (draft : Draft) : Option Draft :=
  let plain := { draft with escaped := false }
  if c ∈ ['\\', '\'', '"', '$', ' '] then some (plain.add c)
  else if c = 'n' then some (plain.add '\n')
  else none

end Draft

/-- Whether the rest of a line holds nothing but blanks and a comment. -/
def isTrailer : List Char → Bool
  | [] => true
  | c :: rest => if c = ' ' ∨ c = '\t' then isTrailer rest else c = '#'

/-- **Read a value.** -/
def readValue (known : Variables) (draft : Draft) : List Char → Option Draft
  | [] =>
    if draft.strong || draft.weak || draft.reference = .braced then none
    else some (draft.substitute known)
  | c :: rest =>
    if draft.escaped then do
      let draft ← draft.escape? c
      readValue known draft rest
    else if draft.strong then
      readValue known (if c = '\'' then { draft with strong := false } else draft.add c) rest
    else if draft.reference ≠ .none then readValue known (draft.refer known c) rest
    else if c = '$' then readValue known { draft with reference := .bare } rest
    else if c = '\\' then readValue known { draft with escaped := true } rest
    else if draft.weak then
      readValue known (if c = '"' then { draft with weak := false } else draft.add c) rest
    else if c = '\'' then readValue known { draft with strong := true } rest
    else if c = '"' then readValue known { draft with weak := true } rest
    else if c = ' ' ∨ c = '\t' then
      if isTrailer rest then some (draft.substitute known) else none
    else readValue known (draft.add c) rest

/-! ### Assignments -/

/-- The name of a variable. -/
def readName : Read String := do
  match ← Read.peek with
  | some c =>
    if c.isAlpha || c = '_' then
      String.ofList <$> Read.run fun c => c.isAlpha || c.isDigit || c = '_' || c = '.'
    else Read.refuse
  | none => Read.refuse

/-- Drop white space. -/
def skipBlanks : Read Unit := do
  let _ ← Read.run Unicode.isBlank

/-- The name in front of an equals sign, which the word `export` may precede. -/
def readTarget : Read String := do
  let name ← readName
  skipBlanks
  if ← Read.accepts ['='] then pure name
  else if name = "export" then
    let name ← readName
    skipBlanks
    Read.exactly ['=']
    pure name
  else Read.refuse

/-- A line without the white space at its end. -/
def trimEnd (line : List Char) : List Char :=
  (line.reverse.dropWhile Unicode.isBlank).reverse

/-- **What a line assigns**, if it is no comment and not blank. -/
def readAssignment (known : Variables) (line : List Char) : Option (Option (String × String)) :=
  match (trimEnd line).dropWhile Unicode.isBlank with
  | [] => some none
  | '#' :: _ => some none
  | line => do
    let (name, rest) ← readTarget line
    match rest.dropWhile Unicode.isBlank with
    | [] => some (some (name, ""))
    | '#' :: _ => some (some (name, ""))
    | value => do
      let draft ← readValue known .start value
      some (some (name, String.ofList draft.output.reverse))

/-- Add what lines assign, up to the first that is not as it should be. -/
def assign (known : Variables) : List (Option (List Char)) → Variables
  | [] => known
  | none :: _ => known
  | some line :: rest =>
    match readAssignment known line with
    | none => known
    | some none => assign known rest
    | some (some (name, value)) =>
      if (known.find? name).isSome then assign known rest
      else assign (known ++ [(name, value)]) rest

/-- Drop a byte order mark. -/
def dropMark : List Char → List Char
  | '\ufeff' :: rest => rest
  | text => text

/-- **Add the variables of a file.** -/
def load (text : String) (known : Variables) : Variables :=
  assign known (logicalLines [] .plain (physicalLines [] (dropMark text.toList)))

end Schemata.VariableFile
