/-
**The programs that patterns stand for.**

A pattern is turned into a program of states, once for reading forwards and once for reading
backwards, and a pattern with too large a program is refused. The pattern is simplified before:
literals in sequence join, branches that are single characters make a set, and what all branches
start with is taken out of them.

* `Program.sequence`, `Program.either` and `Program.repeated` build simplified programs;
* `Program.size` is the room that the states of a program take;
* `Program.fits` says whether both programs of a pattern are small enough.
-/

import Schemata.Pattern.Basic
import Schemata.Unicode.Encoding

namespace Schemata.Pattern

open Unicode (CharSet)

/-- A program. A literal and a list of parts are not empty, and a list of branches has two at
least. -/
inductive Program where
  | nothing
  | literal (characters : List Char)
  | oneOf (set : CharSet)
  | condition (place : Assertion)
  | group (body : Program)
  | parts (list : List Program)
  | branches (list : List Program)
  | rounds (body : Program) (least : Nat) (greatest : Option Nat)
deriving Inhabited

namespace Program

open Unicode.Encoding (total)

/-! ### Lengths -/

/-- The number of bytes that encode some characters. -/
def byteLength (characters : List Char) : Nat :=
  total (characters.map Char.utf8Size)

/-- The length of the encoding of a code point, which is a character. -/
def pointLength (point : Nat) : Nat :=
  (Char.ofNat point).utf8Size

/-- The least number, if every one is known. -/
def least? : List (Option Nat) → Option Nat
  | [] => none
  | [length] => length
  | length :: rest => do return min (← length) (← least? rest)

/-- The greatest number, if every one is known. -/
def greatest? : List (Option Nat) → Option Nat
  | [] => none
  | [length] => length
  | length :: rest => do return max (← length) (← greatest? rest)

/-- The sum of numbers, if every one is known. -/
def sum? (lengths : List (Option Nat)) : Option Nat :=
  lengths.foldl (fun sum length => do return (← sum) + (← length)) (some 0)

/-- The length of the shortest match in bytes, unless nothing matches. -/
def leastLength : Program → Option Nat
  | nothing => some 0
  | literal characters => some (byteLength characters)
  | oneOf set => set.ranges.head?.map fun range => pointLength range.1
  | condition _ => some 0
  | group body => body.leastLength
  | parts all => sum? (all.map leastLength)
  | branches all => least? (all.map leastLength)
  | rounds body least _ => body.leastLength.map (· * least)

/-- The length of the longest match in bytes, if there is a longest one. -/
def greatestLength : Program → Option Nat
  | nothing => some 0
  | literal characters => some (byteLength characters)
  | oneOf set => set.ranges.getLast?.map fun range => pointLength range.2
  | condition _ => some 0
  | group body => body.greatestLength
  | parts all => sum? (all.map greatestLength)
  | branches all => greatest? (all.map greatestLength)
  | rounds body _ greatest => do return (← body.greatestLength) * (← greatest)

/-! ### Equality -/

mutual

/-- Whether two programs are the same. Every group is different from all others. -/
def same : Program → Program → Bool
  | nothing, nothing => true
  | literal first, literal second => first == second
  | oneOf first, oneOf second => first == second
  | condition first, condition second => first == second
  | parts first, parts second => allSame first second
  | branches first, branches second => allSame first second
  | rounds first least greatest, rounds second least' greatest' =>
    least == least' && greatest == greatest' && same first second
  | _, _ => false

/-- Whether two lists of programs are the same. -/
def allSame : List Program → List Program → Bool
  | [], [] => true
  | first :: rest, second :: others => same first second && allSame rest others
  | _, _ => false

end

/-- The programs that two lists start with alike. -/
def commonStart : List Program → List Program → List Program
  | first :: rest, second :: others =>
    if same first second then first :: commonStart rest others else []
  | _, _ => []

/-! ### Simplified programs -/

/-- A set of characters. A set of one character is a literal. -/
def ofSet (set : CharSet) : Program :=
  match set.ranges with
  | [(first, last)] => if first = last then literal [Char.ofNat first] else oneOf set
  | _ => oneOf set

/-- Put a part in front of others; a literal joins a literal that follows. -/
def putFirst (part : Program) (others : List Program) : List Program :=
  match part, others with
  | literal first, literal second :: rest => literal (first ++ second) :: rest
  | part, others => part :: others

/-- The parts of a program in sequence. -/
def toParts : Program → List Program
  | nothing => []
  | parts all => all
  | part => [part]

/-- **Programs in sequence.** -/
def sequence (programs : List Program) : Program :=
  match (programs.flatMap toParts).foldr putFirst [] with
  | [] => nothing
  | [part] => part
  | joined => parts joined

/-- The branches of a program. -/
def toBranches : Program → List Program
  | branches all => all
  | branch => [branch]

/-- The set of a program that matches single characters. -/
def set? : Program → Option CharSet
  | oneOf set => some set
  | literal [c] => some (.single c)
  | _ => none

/-- Branches, which make a set if all of them match single characters. -/
def merged (programs : List Program) : Program :=
  let all := programs.flatMap toBranches
  match all.mapM set? with
  | some sets => ofSet (.unionAll sets)
  | none => branches all

/-- The parts of a program that has several. -/
def manyParts? : Program → Option (List Program)
  | parts all => some all
  | _ => none

/-- Take out what all branches start with. -/
def factored? (programs : List Program) : Option Program := do
  let lists ← programs.mapM manyParts?
  let (first, rest) ← match lists with
    | [] => none
    | first :: rest => some (first, rest)
  match rest.foldl commonStart first with
  | [] => none
  | start =>
    some (sequence (start ++ [merged (lists.map fun list => sequence (list.drop start.length))]))

/-- **Two or more branches.** -/
def either (programs : List Program) : Program :=
  match merged programs with
  | branches all => (factored? all).getD (branches all)
  | program => program

/-- **A repeated program.** More than one round over nothing is one round. -/
def repeated (body : Program) (least : Nat) (greatest : Option Nat) : Program :=
  let isEmpty := body.greatestLength = some 0
  let least := if isEmpty then min least 1 else least
  let greatest := if isEmpty then some (min (greatest.getD 1) 1) else greatest
  if least = 0 ∧ greatest = some 0 then nothing
  else if least = 1 ∧ greatest = some 1 then body
  else rounds body least greatest

/-! ### Sizes -/

/-- The room of a state, without the list of its edges. -/
def stateSize : Nat := 32

/-- The room of an edge that reads a unit. -/
def edgeSize : Nat := 8

/-- The room of an edge that reads nothing. -/
def linkSize : Nat := 4

/-- The room of a set. A set of ASCII characters takes one state and the one after it. Other sets
are trees of encodings: forwards, equal branches are shared, and backwards, equal beginnings. -/
def setSize (backwards : Bool) (set : CharSet) : Nat :=
  if set.isAscii then 2 * stateSize + edgeSize * set.ranges.length
  else
    let paths := set.encodings
    if backwards then
      (2 + Unicode.Encoding.pathCount paths) * stateSize + linkSize * paths.length
    else
      let sizes := Unicode.Encoding.nodeSizes paths
      (1 + sizes.length) * stateSize + edgeSize * total sizes

/-! ### Sizes of word lists -/

/-- A word in bytes, from the side from which it is read. -/
def word (backwards : Bool) (characters : List Char) : List UInt8 :=
  let bytes := characters.flatMap String.utf8EncodeChar
  if backwards then bytes.reverse else bytes

/-- Cut words at the empty ones. Empty words at the start cut only once. -/
def cutAtEmpty (words : List (List UInt8)) : List (List (List UInt8)) :=
  let starting := words.takeWhile List.isEmpty
  (starting.take 1 ++ words.drop starting.length).splitOnP List.isEmpty

/-- The room of a tree of words, whose edges read single bytes; `height` bounds the length of the
words. A node has a link for every group of words between the empty ones, and one for each empty
one. -/
def wordTreeSize : (height : Nat) → (words : List (List UInt8)) → Nat
  | 0, _ => 0
  | height + 1, words =>
    let groups := cutAtEmpty words
    let filled := groups.filter (! ·.isEmpty)
    let groupSizes := filled.map fun group =>
      let bytes := (group.filterMap List.head?).eraseDups
      let state := if bytes.length = 1 then stateSize else stateSize + edgeSize * bytes.length
      let targets := bytes.map fun byte =>
        let rest := (group.filter (·.head? == some byte)).map List.tail
        if rest.all List.isEmpty then 0 else wordTreeSize height rest
      state + total targets
    stateSize + linkSize * (filled.length + (groups.length - 1)) + total groupSizes

/-- The characters of a literal. -/
def characters? : Program → Option (List Char)
  | literal characters => some characters
  | _ => none

/-- The room of branches that are all literals. -/
def wordsSize (backwards : Bool) (literals : List (List Char)) : Nat :=
  let words := literals.map (word backwards)
  let height := (words.map List.length).foldl max 0
  stateSize + wordTreeSize (height + 1) words

/-! ### Sizes of programs -/

/-- The room that a link from the end of a program takes: a state that repeats has a list of links,
and other states have room for one. -/
def endSize (backwards : Bool) : Program → Nat
  | group body => if backwards then body.endSize backwards else 0
  | parts all =>
    let ends := all.map (endSize backwards)
    ((if backwards then ends.head? else ends.getLast?).getD 0)
  | rounds body least none =>
    if least = 0 then (if body.leastLength.any (0 < ·) then linkSize else 0) else linkSize
  | rounds body least (some greatest) => if least = greatest then body.endSize backwards else 0
  | _ => 0

/-- The room of `count` copies in a row, where `link` is the room of a link from one to the next. -/
def copiesSize (size link count : Nat) : Nat :=
  if count = 0 then stateSize else count * size + (count - 1) * link

/-- The room of a repetition of a body. -/
def roundsSize (size link : Nat) (isEmptyable : Bool) (least : Nat) : Option Nat → Nat
  | none =>
    if least = 0 then
      if isEmptyable then size + link + 3 * stateSize + 4 * linkSize
      else size + link + stateSize + linkSize
    else least * (size + link) + stateSize + linkSize
  | some greatest =>
    if least = 0 ∧ greatest = 1 then size + link + 2 * stateSize + 2 * linkSize
    else if least = greatest then copiesSize size link least
    else
      copiesSize size link least + (if least = 0 then 0 else link) + stateSize +
        (greatest - least) * (size + link + stateSize + 2 * linkSize)

/-- **The room that the states of a program take.** -/
def size (backwards : Bool) : Program → Nat
  | nothing => stateSize
  | literal characters => byteLength characters * stateSize
  | oneOf set => setSize backwards set
  | condition _ => stateSize
  | group body =>
    if backwards then body.size backwards
    else body.size backwards + body.endSize backwards + 2 * stateSize
  | parts all =>
    let links := all.map (endSize backwards)
    let last := (if backwards then links.head? else links.getLast?).getD 0
    total (all.map (size backwards)) + total links - last
  | branches all =>
    match all.mapM characters? with
    | some literals => wordsSize backwards literals
    | none =>
      total (all.map (size backwards)) + total (all.map (endSize backwards)) +
        2 * stateSize + linkSize * all.length
  | rounds body least greatest =>
    roundsSize (body.size backwards) (body.endSize backwards)
      (!body.leastLength.any (0 < ·)) least greatest

/-! ### Whole programs -/

/-- Whether every match lies at the start of the text, or at its end for a program that reads
backwards. -/
def isAnchored (backwards : Bool) : Program → Bool
  | condition place => if backwards then place == .textEnd else place == .textStart
  | group body => body.isAnchored backwards
  | parts all =>
    let places := all.map fun part => (part.isAnchored backwards, part.greatestLength)
    let places := if backwards then places.reverse else places
    let empty := places.takeWhile (·.2 == some 0)
    (places.take (empty.length + 1)).any (·.1)
  | branches all => (all.map (isAnchored backwards)).all id
  | rounds body least _ => 0 < least && body.isAnchored backwards
  | _ => false

/-- The room of a whole program. A program that may match anywhere first passes over any bytes; a
program that reads forwards keeps the place of its match. -/
def wholeSize (backwards : Bool) (program : Program) : Nat :=
  let passing :=
    if program.isAnchored backwards then stateSize else 3 * stateSize + edgeSize + 2 * linkSize
  let kept := if backwards then 0 else 2 * stateSize
  passing + kept + program.size backwards + program.endSize backwards + stateSize

/-- The greatest room that a program may take. -/
def greatestSize : Nat := 10 * Nat.pow 2 20

/-- **Whether both programs of a pattern are small enough.** -/
def fits (program : Program) : Bool :=
  program.wholeSize false ≤ greatestSize && program.wholeSize true ≤ greatestSize

end Program

end Schemata.Pattern
