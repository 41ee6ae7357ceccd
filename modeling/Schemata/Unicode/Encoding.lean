/-
**Encodings of sets of characters in bytes.**

A character is encoded in one to four units: a lead and continuations of six bits each. The
encodings of a set are listed as sequences of ranges of units, in increasing order, such that two
sequences agree up to some unit and differ in disjoint ranges there. Such a list is the list of
paths of a tree.

* `CharSet.encodings` lists the sequences of a set;
* `pathCount` counts the edges of the tree, and `nodeSizes` lists the edges of each of its nodes,
  where nodes with the same branches count once.
-/

import Schemata.Unicode.CharSet

namespace Schemata.Unicode

/-- A range of units, first and last included. -/
abbrev UnitRange := Nat × Nat

namespace Encoding

/-- What a continuation is above the bits that it holds. -/
def continuationMark : Nat := 0x80

/-- **The sequences for the numbers from `first` to `last`** that are written as a unit above `mark`
and `count` continuations. Numbers before the first full block and after the last one are split
off. -/
def sequences (mark : Nat) : (count first last : Nat) → List (List UnitRange)
  | 0, first, last => [[(mark + first, mark + last)]]
  | count + 1, first, last =>
    let block := Nat.pow 64 (count + 1)
    let low := first / block
    let high := last / block
    let within (unit first last : Nat) : List (List UnitRange) :=
      (sequences continuationMark count first last).map ((mark + unit, mark + unit) :: ·)
    if low = high then within low (first % block) (last % block)
    else
      let whole := List.replicate (count + 1) (continuationMark, continuationMark + 63)
      let start := if first % block = 0 then low else low + 1
      let stop := if last % block = block - 1 then high + 1 else high
      (if first % block = 0 then [] else within low (first % block) (block - 1)) ++
        (if start < stop then [(mark + start, mark + (stop - 1)) :: whole] else []) ++
        (if last % block = block - 1 then [] else within high 0 (last % block))

/-- The code points with encodings of one length: the first and the last one, the mark of the lead,
and the number of continuations. No character lies between the third and the fourth row. -/
def lengths : List (Nat × Nat × Nat × Nat) :=
  [(0, 0x7F, 0, 0), (0x80, 0x7FF, 0xC0, 1), (0x800, 0xD7FF, 0xE0, 2), (0xE000, 0xFFFF, 0xE0, 2),
    (0x10000, 0x10FFFF, 0xF0, 3)]

/-- The sequences of a range of code points. -/
def ofRange (range : Nat × Nat) : List (List UnitRange) :=
  lengths.flatMap fun (first, last, mark, count) =>
    let low := max first range.1
    let high := min last range.2
    if low ≤ high then sequences mark count low high else []

end Encoding

/-- **The sequences of units that encode the characters of a set.** -/
def CharSet.encodings (set : CharSet) : List (List UnitRange) :=
  set.ranges.flatMap Encoding.ofRange

namespace Encoding

/-- The sum of some counts. -/
def total (counts : List Nat) : Nat :=
  counts.foldl (· + ·) 0

/-- The number of units that a sequence shares with another one at the start. -/
def shared : List UnitRange → List UnitRange → Nat
  | first :: rest, other :: others => if first = other then shared rest others + 1 else 0
  | _, _ => 0

/-- **The number of distinct beginnings of the sequences**, which is the number of edges of their
tree. -/
def pathCount (paths : List (List UnitRange)) : Nat :=
  total ((paths.zip ([] :: paths)).map fun (path, previous) => path.length - shared path previous)

/-- A node of a tree with shared branches: the ranges of its edges, with the number of the node that
each leads to. The end of all paths has the number zero. -/
abbrev Node := List (UnitRange × Nat)

/-- The number of a node, which is added if it is new. -/
def Node.number (node : Node) (nodes : Array Node) : Nat × Array Node :=
  match nodes.findIdx? (· == node) with
  | some index => (index + 1, nodes)
  | none => (nodes.size + 1, nodes.push node)

/-- Add the tree of some paths to the nodes, and answer its number; `height` bounds the length of
the paths. -/
def addTree : (height : Nat) → (paths : List (List UnitRange)) → Array Node → Nat × Array Node
  | 0, _, nodes => (0, nodes)
  | height + 1, paths, nodes =>
    let branches := paths.splitBy fun first second => first.head? == second.head?
    let (edges, nodes) := branches.foldl (fun (edges, nodes) branch =>
      match branch.head?.bind List.head? with
      | none => (edges, nodes)
      | some range =>
        let rest := branch.map List.tail
        let (target, nodes) :=
          if rest.all List.isEmpty then (0, nodes) else addTree height rest nodes
        ((range, target) :: edges, nodes)) (([] : Node), nodes)
    Node.number edges.reverse nodes

/-- **The numbers of edges of the nodes of a tree** in which equal branches are shared. -/
def nodeSizes (paths : List (List UnitRange)) : List Nat :=
  (addTree 4 paths #[]).2.toList.map List.length

end Encoding

end Schemata.Unicode
