/-
**TOML values, and the rules by which tables are written.**

While a document is read, each table remembers how it came to be, since that decides what may be
added to it. A table that a header opens is open once; a table that a dotted key makes grows by
dotted keys only; a table that lies on the way of a header may still be opened.

* `Node.put` puts a value under a dotted key;
* `Node.openTable` and `Node.openItem` follow headers, and `Node.change` changes the table that was
  opened last;
* `Node.value` forgets how a table came to be.
-/

import Schemata.Numeral.Binary64

namespace Schemata.Toml

/-- A value. Dates and times are kept as texts. -/
inductive Value where
  | string (text : String)
  | integer (value : Int)
  | float (datum : Binary64.Datum)
  | bool (flag : Bool)
  | moment (text : String)
  | array (items : List Value)
  | table (entries : List (String × Value))
deriving Inhabited

/-- How a table came to be: by a header of its own, on the way of a header, or by a dotted key. -/
inductive Origin where
  | header
  | passed
  | dotted
deriving DecidableEq, Repr

/-- A part of a document that is being read: a value that is complete, a table, or the tables under
headers of items, from the last to the first. -/
inductive Node where
  | closed (value : Value)
  | table (origin : Origin) (entries : List (String × Node))
  | items (last : List (String × Node)) (others : List (List (String × Node)))

/-- The entries of a table that is being read. -/
abbrev Entries := List (String × Node)

namespace Node

/-- The entry under a key. -/
def find? (key : String) (entries : Entries) : Option Node :=
  (entries.find? fun entry => entry.1 = key).map Prod.snd

/-- Put an entry in the place of another one, or at the end. -/
def set (key : String) (node : Node) : Entries → Entries
  | [] => [(key, node)]
  | entry :: rest => if entry.1 = key then (key, node) :: rest else entry :: set key node rest

/-- Put a new entry at the end. -/
def add? (key : String) (node : Node) (entries : Entries) : Option Entries :=
  if (find? key entries).isSome then none else some (entries ++ [(key, node)])

/-! ### Keys -/

/-- **Put a value under a dotted key.** The tables on its way must be made by dotted keys, or lie on
the way of headers and not be the last of them. -/
def put (value : Value) : (path : List String) → (key : String) → Entries → Option Entries
  | [], key, entries => add? key (.closed value) entries
  | step :: path, key, entries =>
    match find? step entries with
    | none => do
      let inner ← put value path key []
      some (entries ++ [(step, .table .dotted inner)])
    | some (.table origin held) =>
      if origin = .header ∨ (origin = .passed ∧ path.isEmpty) then none
      else do
        let inner ← put value path key held
        some (set step (.table origin inner) entries)
    | some (.items last others) =>
      if path.isEmpty then none
      else do
        let inner ← put value path key last
        some (set step (.items inner others) entries)
    | some (.closed _) => none

/-! ### Headers -/

/-- **Change the table at a path**, which goes through the last of the tables of items. -/
def change (update : Entries → Option Entries) : (path : List String) → Entries → Option Entries
  | [], entries => update entries
  | step :: path, entries =>
    match find? step entries with
    | none => do
      let inner ← change update path []
      some (entries ++ [(step, .table .passed inner)])
    | some (.table origin held) => do
      let inner ← change update path held
      some (set step (.table origin inner) entries)
    | some (.items last others) => do
      let inner ← change update path last
      some (set step (.items inner others) entries)
    | some (.closed _) => none

/-- Open a table under a key. -/
def openTable (key : String) (entries : Entries) : Option Entries :=
  match find? key entries with
  | none => some (entries ++ [(key, .table .header [])])
  | some (.table .passed held) => some (set key (.table .header held) entries)
  | some _ => none

/-- Open the table of a further item under a key. -/
def openItem (key : String) (entries : Entries) : Option Entries :=
  match find? key entries with
  | none => some (entries ++ [(key, .items [] [])])
  | some (.items last others) => some (set key (.items [] (last :: others)) entries)
  | some _ => none

/-! ### Values -/

mutual

/-- **The value of a node.** -/
def value : Node → Value
  | .closed held => held
  | .table _ entries => .table (values entries)
  | .items last others => .array (itemValues others [.table (values last)])

/-- The values of entries. -/
def values : List (String × Node) → List (String × Value)
  | [] => []
  | (key, node) :: rest => (key, node.value) :: values rest

/-- The values of items, given from the last to the first, in front of those after them. -/
def itemValues : List (List (String × Node)) → List Value → List Value
  | [], done => done
  | entries :: rest, done => itemValues rest (.table (values entries) :: done)

end

end Node

end Schemata.Toml
