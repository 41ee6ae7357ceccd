/-
**Layers of settings.**

Settings come from several sources, each a tree of tables. A later source is put over an earlier one
key by key, where keys differ in more than the case of their letters. A source may name a place by a
path, which goes through tables by keys and through arrays by positions.

* `Layer.put` puts a value at a path, and makes the tables and arrays on its way;
* `Layer.replace` puts a table into a table by putting its entries there, and any other value in the
  place of the value before.
-/

import Schemata.Numeral.Reading
import Schemata.Read
import Schemata.Toml.Table

namespace Schemata.Layer

open Toml (Value)

/-! ### Trees -/

/-- A tree of settings. An array has a gap at a position that no value has been put at. -/
inductive Tree where
  | leaf (value : Value)
  | array (items : List (Option Tree))
  | table (entries : List (String × Tree))

/-- The entries of a table. -/
abbrev Entries := List (String × Tree)

/-- The entries of a tree, of which only a table has any. -/
def Tree.entries : Option Tree → Entries
  | some (.table entries) => entries
  | _ => []

/-- The items of a tree, of which only an array has any. -/
def Tree.items : Option Tree → List (Option Tree)
  | some (.array items) => items
  | _ => []

/-- The entry under a key. -/
def find? (key : String) (entries : Entries) : Option Tree :=
  (List.find? (fun entry => entry.1 = key) entries).map Prod.snd

/-- Put an entry in the place of another one, or at the end. -/
def set (key : String) (tree : Tree) : Entries → Entries
  | [] => [(key, tree)]
  | entry :: rest => if entry.1 = key then (key, tree) :: rest else entry :: set key tree rest

/-- Put an item at a position, with gaps before it if there are fewer items. -/
def setItem (tree : Tree) : (position : Nat) → List (Option Tree) → List (Option Tree)
  | 0, items => some tree :: items.tail
  | position + 1, items => items.head?.join :: setItem tree position items.tail

/-! ### Putting values -/

mutual

/-- **Put a value over a tree.** A table without entries leaves a value that is no table. -/
def replace (held : Option Tree) : Value → Tree
  | .table [] => held.getD (.table [])
  | .table (entry :: rest) => .table (merge (Tree.entries held) (entry :: rest))
  | .array items => .array (items.map fun item => some (.leaf item))
  | other => .leaf other

/-- Put entries over those of a table. -/
def merge (held : Entries) : List (String × Value) → Entries
  | [] => held
  | (key, value) :: rest =>
    merge (set key.toLower (replace (find? key.toLower held) value) held) rest

end

/-- A step of a path. -/
inductive Step where
  | key (name : String)
  | item (position : Nat)
deriving DecidableEq, Repr

/-- **Put a value at a path.** -/
def put (value : Value) : (path : List Step) → Option Tree → Tree
  | [], held => replace held value
  | .key name :: path, held =>
    let entries := Tree.entries held
    .table (set name.toLower (put value path (find? name.toLower entries)) entries)
  | .item position :: path, held =>
    let items := Tree.items held
    .array (setItem (put value path (items[position]?).join) position items)

/-! ### Paths -/

/-- A character of a key in a path. -/
def isKeyChar (c : Char) : Bool :=
  c.isAlpha || c.isDigit || c = ' ' || c = '_' || c = '-'

/-- A key of a path. -/
def readKey : Read Step := do
  let key ← Read.run isKeyChar
  if key.isEmpty then Read.refuse else pure (.key (String.ofList key))

/-- A position behind its opening bracket. -/
def readPosition : Read Step := do
  let _ ← Read.run fun c => c = ' ' || c = '\t'
  let digits ← Read.run Char.isDigit
  let _ ← Read.run fun c => c = ' ' || c = '\t'
  Read.exactly [']']
  let position := Numeral.digitsValue digits
  if digits.isEmpty ∨ Nat.pow 2 63 ≤ position then Read.refuse else pure (.item position)

/-- Further steps up to the end of a text: keys behind points and positions in brackets; `fuel`
bounds their number. -/
def readSteps : (fuel : Nat) → Read (List Step)
  | 0 => Read.refuse
  | fuel + 1 => do
    if (← Read.peek).isNone then pure []
    else
      let step ← if ← Read.accepts ['.'] then readKey else do
        Read.exactly ['[']
        readPosition
      let others ← readSteps fuel
      pure (step :: others)

/-- **The path that a text stands for.** A text of another form is a single key. -/
def pathOf (text : String) : List Step :=
  let path : Read (List Step) := do
    let first ← readKey
    let others ← readSteps (text.length + 1)
    pure (first :: others)
  (path.whole? text).getD [.key text]

/-- Put entries over a tree, each at the path that its key stands for. -/
def putAll (entries : List (String × Value)) (tree : Tree) : Tree :=
  entries.foldl (fun tree entry => put entry.2 (pathOf entry.1) (some tree)) tree

end Schemata.Layer
