/-
**Reading pattern texts.**

A text is read from left to right into the groups that are open at each point. A group holds the
branches that are complete and the parts of the branch that is being read; a repetition takes the
last part, and a closing bracket makes a part of the whole group.

* `Scan.step?` reads one part, operator or bracket;
* `Pattern.ofText?` reads a whole text. It refuses texts whose parts are nested too deeply, and
  those whose programs are too large.
-/

import Schemata.Pattern.Bracket
import Schemata.Pattern.Program

namespace Schemata.Pattern

open Unicode (CharSet)

/-- A part of a pattern, with the depth of its nesting and its program. Switched flags make a part
that cannot be repeated. -/
structure Piece where
  pattern : Pattern
  depth : Nat
  program : Program
  repeatable : Bool

/-! ### Parts -/

/-- A part that matches nothing but the empty text. -/
def Piece.nothing (repeatable : Bool) : Piece := ⟨.empty, 0, .nothing, repeatable⟩

/-- A condition. -/
def Piece.ofAssertion (condition : Assertion) : Piece :=
  ⟨.assertion condition, 0, .condition condition, true⟩

/-- A set of characters that lies at some depth. -/
def Piece.ofSet (set : CharSet) (depth : Nat) : Piece :=
  ⟨.oneOf set, depth, .ofSet set, true⟩

/-- A literal. Where only ASCII counts, a byte beyond it is no character. -/
def Piece.ofLiteral? (flags : Flags) (c : Char) (byte : Bool) : Option Piece :=
  if flags.ascii && byte && 0x80 ≤ c.toNat then none
  else some (ofSet (fold flags (.single c)) 0)

/-- An escape outside a bracket. -/
def Piece.ofAtom? (flags : Flags) : Atom → Option Piece
  | .literal character byte => ofLiteral? flags character byte
  | .set members => (admit? flags members).map fun set => ofSet set 0
  | .condition condition => some (ofAssertion condition)

/-- The characters that a point matches. -/
def dotSet (flags : Flags) : CharSet :=
  let kept : CharSet :=
    if flags.dotAll then .empty
    else if flags.pairs then ⟨[(0xA, 0xA), (0xD, 0xD)]⟩
    else .single '\n'
  kept.complement CharSet.lastCodePoint

/-- The condition of a caret. -/
def caret (flags : Flags) : Assertion :=
  if flags.multiLine then .lineStart flags.pairs else .textStart

/-- The condition of a dollar sign. -/
def dollar (flags : Flags) : Assertion :=
  if flags.multiLine then .lineEnd flags.pairs else .textEnd

/-- Parts in sequence, given from the last to the first. -/
def Piece.sequence : List Piece → Piece
  | [] => .nothing true
  | [part] => part
  | last :: others =>
    let pattern := others.foldl (fun whole part => .sequence part.pattern whole) last.pattern
    let all := (last :: others).reverse
    ⟨pattern, (all.map Piece.depth).foldl max 0 + 1, .sequence (all.map Piece.program), true⟩

/-- Branches, given from the last to the first. -/
def Piece.either (last : Piece) : List Piece → Piece
  | [] => last
  | others =>
    let pattern := others.foldl (fun whole branch => .either branch.pattern whole) last.pattern
    let all := (last :: others).reverse
    ⟨pattern, (all.map Piece.depth).foldl max 0 + 1, .either (all.map Piece.program), true⟩

/-- A repeated part. -/
def Piece.repeated (part : Piece) (least : Nat) (greatest : Option Nat) : Piece :=
  ⟨.repetition part.pattern least greatest, part.depth + 1, part.program.repeated least greatest,
    true⟩

/-! ### Groups -/

/-- An open group: the branches and the parts of the last branch, both from the last to the first,
the flags around the group, and whether the place of its match is kept. -/
structure OpenGroup where
  branches : List Piece
  parts : List Piece
  outer : Flags
  kept : Bool

namespace OpenGroup

/-- A group that has just been opened. -/
def start (outer : Flags) (kept : Bool) : OpenGroup := ⟨[], [], outer, kept⟩

/-- Add a part. -/
def add (group : OpenGroup) (part : Piece) : OpenGroup :=
  { group with parts := part :: group.parts }

/-- Repeat the last part. -/
def repeatLast? (group : OpenGroup) (least : Nat) (greatest : Option Nat) : Option OpenGroup :=
  match group.parts with
  | part :: others =>
    if part.repeatable then some { group with parts := part.repeated least greatest :: others }
    else none
  | [] => none

/-- Go on with the next branch. -/
def nextBranch (group : OpenGroup) : OpenGroup :=
  { group with branches := .sequence group.parts :: group.branches, parts := [] }

/-- What the group holds. -/
def content (group : OpenGroup) : Piece :=
  .either (.sequence group.parts) group.branches

/-- The part that the group makes of what it holds. -/
def toPiece (group : OpenGroup) : Piece :=
  let content := group.content
  ⟨content.pattern, content.depth + 1,
    if group.kept then .group content.program else content.program, true⟩

end OpenGroup

/-- What has been read: the flags at this point, the innermost group, the groups around it, and the
names of groups. -/
structure Scan where
  flags : Flags
  group : OpenGroup
  around : List OpenGroup
  names : List (List Char)

/-- Nothing has been read. -/
def Scan.start : Scan := ⟨.initial, .start .initial false, [], []⟩

/-! ### Openings of groups -/

/-- Whether a character may stand in the name of a group. -/
def isNameChar (first : Bool) (c : Char) : Bool :=
  c = '_' || Unicode.Property.alphabetic.contains c ||
    (!first && (c = '.' || c = '[' || c = ']' || Unicode.Property.alphanumeric.contains c))

/-- Whether some characters are the name of a group. -/
def isGroupName : List Char → Bool
  | [] => false
  | c :: rest => isNameChar true c && rest.all (isNameChar false)

/-- Open a group. -/
def Scan.openWith (scan : Scan) (flags : Flags) (kept : Bool) (names : List (List Char)) : Scan :=
  ⟨flags, .start scan.flags kept, scan.group :: scan.around, names⟩

/-- Open a group with a name that no other group has. -/
def Scan.openNamed? (scan : Scan) (text : List Char) : Option (Scan × List Char) :=
  let name := text.takeWhile (· ≠ '>')
  match text.dropWhile (· ≠ '>') with
  | _ :: rest =>
    if isGroupName name && !scan.names.contains name then
      some (scan.openWith scan.flags true (name :: scan.names), rest)
    else none
  | [] => none

/-- Open a group with flags of its own, or switch flags for the rest of this group. -/
def Scan.openFlagged? (scan : Scan) (text : List Char) : Option (Scan × List Char) := do
  let (flags, seen, final, rest) ← scan.flags.read? [] text
  if final = ':' then some (scan.openWith flags false scan.names, rest)
  else if seen.isEmpty then none
  else some ({ scan with flags, group := scan.group.add (.nothing false) }, rest)

/-- **What follows an opening bracket.** Conditions on the text around a match are refused. -/
def Scan.open? (scan : Scan) (text : List Char) : Option (Scan × List Char) :=
  match skip scan.flags text with
  | '?' :: 'P' :: '<' :: rest => scan.openNamed? rest
  | '?' :: '<' :: rest => scan.openNamed? rest
  | '?' :: rest => scan.openFlagged? rest
  | rest => some (scan.openWith scan.flags true scan.names, rest)

/-- Close the innermost group, which becomes a part of the one around it. -/
def Scan.close? (scan : Scan) : Option Scan :=
  match scan.around with
  | [] => none
  | outer :: around =>
    some ⟨scan.group.outer, outer.add scan.group.toPiece, around, scan.names⟩

/-! ### Repetitions -/

/-- Digits, which anything that is skipped may separate; `fuel` bounds their number. -/
def readDigits (flags : Flags) : (fuel : Nat) → List Char → List Char × List Char
  | 0, text => ([], text)
  | _ + 1, [] => ([], [])
  | fuel + 1, c :: rest =>
    if c.isDigit then
      let (digits, rest) := readDigits flags fuel (skip flags rest)
      (c :: digits, rest)
    else ([], c :: rest)

/-- A count below `2 ^ 32`, with blanks around it. -/
def readCount? (flags : Flags) : Read Nat := fun text =>
  let (digits, rest) := readDigits flags (text.length + 1) (text.dropWhile Unicode.isBlank)
  let value := digits.foldl (fun value digit => value * 10 + (digit.toNat - '0'.toNat)) 0
  if digits.isEmpty || Nat.pow 2 32 ≤ value then none
  else some (value, skip flags (rest.dropWhile Unicode.isBlank))

/-- **The counts in braces**, after the opening one. -/
def readCounts? (flags : Flags) : Read (Nat × Option Nat) := fun text => do
  let (least, rest) ← readCount? flags (skip flags text)
  match rest with
  | '\x7d' :: rest => some ((least, some least), rest)
  | ',' :: rest =>
    match skip flags rest with
    | '\x7d' :: rest => some ((least, none), rest)
    | rest => do
      let (greatest, rest) ← readCount? flags rest
      match rest with
      | '\x7d' :: rest => if least ≤ greatest then some ((least, some greatest), rest) else none
      | _ => none
  | _ => none

/-- Drop the mark of a repetition that prefers fewer rounds, which does not change what matches. -/
def dropLazyMark : List Char → List Char
  | '?' :: rest => rest
  | rest => rest

/-! ### The whole text -/

/-- Add a part and go on. -/
def Scan.put (scan : Scan) (rest : List Char) (part : Piece) : Scan × List Char :=
  ({ scan with group := scan.group.add part }, rest)

/-- Repeat the last part and go on. -/
def Scan.repeat? (scan : Scan) (least : Nat) (greatest : Option Nat) (rest : List Char) :
    Option (Scan × List Char) :=
  (scan.group.repeatLast? least greatest).map fun group =>
    ({ scan with group }, dropLazyMark rest)

/-- **Read one part, operator or bracket.** -/
def Scan.step? (scan : Scan) (c : Char) (rest : List Char) : Option (Scan × List Char) :=
  let flags := scan.flags
  if c = '(' then scan.open? rest
  else if c = ')' then scan.close?.map fun scan => (scan, rest)
  else if c = '|' then some ({ scan with group := scan.group.nextBranch }, rest)
  else if c = '[' then do
    let ((set, depth), rest) ← readBracket flags (rest.length + 2) rest
    some (scan.put rest (.ofSet set depth))
  else if c = '?' then scan.repeat? 0 (some 1) rest
  else if c = '*' then scan.repeat? 0 none rest
  else if c = '+' then scan.repeat? 1 none rest
  else if c = '\x7b' then do
    let ((least, greatest), rest) ← readCounts? flags rest
    scan.repeat? least greatest (skip flags rest)
  else if c = '\\' then do
    let (atom, rest) ← readEscape flags rest
    (Piece.ofAtom? flags atom).map (scan.put rest)
  else if c = '.' then if flags.ascii then none else some (scan.put rest (.ofSet (dotSet flags) 0))
  else if c = '^' then some (scan.put rest (.ofAssertion (caret flags)))
  else if c = '$' then some (scan.put rest (.ofAssertion (dollar flags)))
  else (Piece.ofLiteral? flags c false).map (scan.put rest)

/-- Read all of a text; `fuel` bounds the number of steps. -/
def readParts (fuel : Nat) (scan : Scan) (text : List Char) : Option Scan :=
  match fuel with
  | 0 => none
  | fuel + 1 =>
    match skip scan.flags text with
    | [] => some scan
    | c :: rest => do
      let (scan, rest) ← scan.step? c rest
      readParts fuel scan rest

/-- The greatest depth of nested parts. -/
def greatestDepth : Nat := 250

end Schemata.Pattern

namespace Schemata

/-- **The pattern of a text.** Every step reads at least one character. -/
def Pattern.ofText? (text : String) : Option Pattern := do
  let characters := text.toList
  let scan ← Pattern.readParts (characters.length + 1) .start characters
  let whole := scan.group.content
  if scan.around.isEmpty ∧ whole.depth ≤ Pattern.greatestDepth ∧ whole.program.fits then
    some whole.pattern
  else none

end Schemata
