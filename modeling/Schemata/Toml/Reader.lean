/-
**Reading TOML documents.**

A document is a sequence of lines: a header, a key with its value, or neither. A header moves to the
table that the keys behind it belong to.

`Toml.parse` reads a whole document and answers the entries of its outermost table.
-/

import Schemata.Toml.Scalar

namespace Schemata.Toml

/-! ### Values -/

mutual

/-- **A value**, which holds values no deeper than `depth`; `fuel` bounds their number. -/
def readValue : (fuel depth : Nat) → Read Value
  | 0, _ => Read.refuse
  | fuel + 1, depth => do
    match ← Read.peek with
    | none => Read.refuse
    | some c =>
      if c = '"' ∨ c = '\'' then .string <$> readString
      else if (c = '[' ∨ c = '\x7b') ∧ depth = 0 then Read.refuse
      else if c = '[' then do
        Read.exactly ['[']
        .array <$> readItems fuel (depth - 1)
      else if c = '\x7b' then do
        Read.exactly ['\x7b']
        skipBlanks
        if ← Read.accepts ['\x7d'] then pure (.table [])
        else
          let entries ← readEntries fuel (depth - 1) []
          pure (.table (Node.values entries))
      else if ← Read.accepts ['t', 'r', 'u', 'e'] then pure (.bool true)
      else if ← Read.accepts ['f', 'a', 'l', 's', 'e'] then pure (.bool false)
      else fun text =>
        match readMoment text with
        | some moment => some moment
        | none => readNumber text

/-- The items of an array up to its end, with a comma behind each but the last. -/
def readItems : (fuel depth : Nat) → Read (List Value)
  | 0, _ => Read.refuse
  | fuel + 1, depth => do
    skipLines
    if ← Read.accepts [']'] then pure []
    else
      let value ← readValue fuel depth
      skipLines
      if ← Read.accepts [','] then
        let others ← readItems fuel depth
        pure (value :: others)
      else
        Read.exactly [']']
        pure [value]

/-- The entries of a table on one line up to its end, behind those that have been read. -/
def readEntries : (fuel depth : Nat) → Entries → Read Entries
  | 0, _, _ => Read.refuse
  | fuel + 1, depth, entries => do
    let (path, key) ← readKey
    Read.exactly ['=']
    skipBlanks
    let value ← readValue fuel depth
    skipBlanks
    match Node.put value path key entries with
    | none => Read.refuse
    | some entries =>
      if ← Read.accepts [','] then readEntries fuel depth entries
      else
        Read.exactly ['\x7d']
        pure entries

end

/-! ### Lines -/

/-- A document as far as it has been read: its entries, and the path of the table that keys belong
to. -/
structure Draft where
  entries : Entries
  path : List String

/-- A key with its value. -/
def readEntry (draft : Draft) : Read Draft := do
  let (path, key) ← readKey
  Read.exactly ['=']
  skipBlanks
  let value ← fun text => readValue (text.length + 1) greatestDepth text
  match Node.change (Node.put value path key) draft.path draft.entries with
  | some entries => pure { draft with entries }
  | none => Read.refuse

/-- A header behind its opening brackets. -/
def readHeader (draft : Draft) (item : Bool) : Read Draft := do
  let (path, key) ← readKey
  Read.exactly (if item then [']', ']'] else [']'])
  let openKey := if item then Node.openItem key else Node.openTable key
  match Node.change openKey path draft.entries with
  | some entries => pure ⟨entries, path ++ [key]⟩
  | none => Read.refuse

/-- What a line holds before its end. -/
def readLine (draft : Draft) : Read Draft := do
  skipBlanks
  match ← Read.peek with
  | none | some '\n' | some '\r' | some '#' => pure draft
  | some '[' =>
    if ← Read.accepts ['[', '['] then readHeader draft true
    else
      Read.exactly ['[']
      readHeader draft false
  | some _ => readEntry draft

/-- All lines; `fuel` bounds their number. -/
def readDocument : (fuel : Nat) → Draft → Read Draft
  | 0, _ => Read.refuse
  | fuel + 1, draft => do
    let draft ← readLine draft
    readLineEnd
    match ← Read.peek with
    | none => pure draft
    | some _ => readDocument fuel draft

/-- **The entries of a document.** A byte order mark in front does not count. -/
def parse (text : String) : Option (List (String × Value)) :=
  let document : Read Draft := do
    let _ ← Read.accepts ['\ufeff']
    fun text => readDocument (text.length + 1) ⟨[], []⟩ text
  (document.whole? text).map fun draft => Node.values draft.entries

end Schemata.Toml
