/-
**Bracketed sets in pattern texts.**

A bracket lists characters, ranges, classes and brackets. Between such lists stand the operators of
intersection, difference and symmetric difference, which all bind alike and to the left. Where only
ASCII counts, each class and each bracket must hold nothing else, also if an operator around it
leaves only ASCII.
-/

import Schemata.Pattern.Escape

namespace Schemata.Pattern

open Unicode (CharSet)

/-- The operators between the lists of a bracket. -/
inductive SetOperator where
  | intersection
  | difference
  | symmetricDifference

/-- Apply an operator. -/
def SetOperator.apply (operator : SetOperator) (last : Nat) (first second : CharSet) : CharSet :=
  match operator with
  | .intersection => first.intersection last second
  | .difference => first.difference last second
  | .symmetricDifference => first.symmetricDifference last second

/-- What a bracket has collected: the left side of an operator, if there is one, with its depth, and
the list read since then with the number of its items and the depth of the brackets in it. -/
structure Collected where
  left : Option (CharSet × SetOperator × Nat)
  list : CharSet
  count : Nat
  inner : Nat

namespace Collected

/-- Nothing collected. -/
def start : Collected := ⟨none, .empty, 0, 0⟩

/-- Add an item. -/
def add (collected : Collected) (set : CharSet) : Collected :=
  { collected with list := collected.list.union set, count := collected.count + 1 }

/-- The set collected so far. The sides of an operator are closed under case before it applies. -/
def value (flags : Flags) (collected : Collected) : CharSet :=
  match collected.left with
  | none => collected.list
  | some (left, operator, _) =>
    operator.apply (lastPoint flags) (fold flags left) (fold flags collected.list)

/-- How deep the content is. A list of several items and an operator are each deeper than what they
hold. -/
def depth (collected : Collected) : Nat :=
  let list := collected.inner + if 1 < collected.count then 1 else 0
  match collected.left with
  | none => list
  | some (_, _, left) => max left list + 1

/-- Go on after an operator. -/
def operate (flags : Flags) (operator : SetOperator) (collected : Collected) : Collected :=
  ⟨some (collected.value flags, operator, collected.depth), .empty, 0, 0⟩

end Collected

/-! ### Named classes of ASCII -/

/-- The ASCII classes under their names. -/
def asciiClasses : List (String × CharSet) :=
  [("alnum", ⟨[(0x30, 0x39), (0x41, 0x5A), (0x61, 0x7A)]⟩),
    ("alpha", ⟨[(0x41, 0x5A), (0x61, 0x7A)]⟩), ("ascii", ⟨[(0, 0x7F)]⟩),
    ("blank", ⟨[(0x9, 0x9), (0x20, 0x20)]⟩), ("cntrl", ⟨[(0, 0x1F), (0x7F, 0x7F)]⟩),
    ("digit", ⟨[(0x30, 0x39)]⟩), ("graph", ⟨[(0x21, 0x7E)]⟩), ("lower", ⟨[(0x61, 0x7A)]⟩),
    ("print", ⟨[(0x20, 0x7E)]⟩),
    ("punct", ⟨[(0x21, 0x2F), (0x3A, 0x40), (0x5B, 0x60), (0x7B, 0x7E)]⟩),
    ("space", ⟨[(0x9, 0xD), (0x20, 0x20)]⟩), ("upper", ⟨[(0x41, 0x5A)]⟩),
    ("word", ⟨[(0x30, 0x39), (0x41, 0x5A), (0x5F, 0x5F), (0x61, 0x7A)]⟩),
    ("xdigit", ⟨[(0x30, 0x39), (0x41, 0x46), (0x61, 0x66)]⟩)]

/-- A named class, after its opening bracket. What is not written as one is a bracket of its own. -/
def readAsciiClass? (flags : Flags) : List Char → Option (CharSet × List Char)
  | ':' :: rest =>
    let (negated, name) := match rest with
      | '^' :: more => (true, more)
      | _ => (false, rest)
    match name.dropWhile (· ≠ ':') with
    | ':' :: ']' :: rest => do
      let entry ← asciiClasses.find? fun entry =>
        entry.1 = String.ofList (name.takeWhile (· ≠ ':'))
      some (foldAndNegate flags negated entry.2, rest)
    | _ => none
  | _ => none

/-! ### Items -/

/-- A literal, an escape or any other character. -/
def readSetAtom (flags : Flags) : Read Atom
  | [] => none
  | '\\' :: rest => readEscape flags rest
  | c :: rest => some (.literal c false, rest)

/-- The character of a literal, which must be ASCII where only ASCII counts. -/
def Atom.character? (flags : Flags) : Atom → Option Char
  | .literal c _ => if flags.ascii && 0x80 ≤ c.toNat then none else some c
  | _ => none

/-- The set of an item that stands alone. -/
def Atom.set? (flags : Flags) : Atom → Option CharSet
  | .set members => some members
  | atom => (atom.character? flags).map CharSet.single

/-- **A character, a class or a range.** A hyphen before the end of the bracket or before another
hyphen makes no range. -/
def readSetItem (flags : Flags) : Read CharSet := fun text => do
  let (first, rest) ← readSetAtom flags text
  match skip flags rest with
  | [] => none
  | '-' :: after =>
    let next := (skip flags after).head?
    if next = some ']' ∨ next = some '-' then
      let set ← first.set? flags
      some (set, '-' :: after)
    else
      let (second, rest) ← readSetAtom flags (skip flags after)
      let low ← first.character? flags
      let high ← second.character? flags
      if low ≤ high then some (⟨[(low.toNat, high.toNat)]⟩, rest) else none
  | rest =>
    let set ← first.set? flags
    some (set, rest)

/-- Hyphens at the start of a bracket are literal; `fuel` bounds their number. -/
def readHyphens (flags : Flags) : (fuel : Nat) → Collected → Collected × List Char → Collected ×
    List Char
  | 0, _, state => state
  | fuel + 1, collected, (_, text) =>
    match text with
    | '-' :: rest =>
      let added := collected.add (.single '-')
      readHyphens flags fuel added (added, skip flags rest)
    | _ => (collected, text)

/-- The start of a bracket: a negation, then hyphens, then a closing bracket that is literal if
nothing stands before it. -/
def readBracketStart (flags : Flags) (text : List Char) : Bool × Collected × List Char :=
  let (negated, rest) := match skip flags text with
    | '^' :: rest => (true, skip flags rest)
    | rest => (false, rest)
  let (collected, rest) := readHyphens flags rest.length .start (.start, rest)
  match rest with
  | ']' :: more =>
    if collected.count = 0 then (negated, collected.add (.single ']'), skip flags more)
    else (negated, collected, rest)
  | _ => (negated, collected, rest)

mutual

/-- **A bracket, after its opening character**: its set and how deep it is. `fuel` bounds the number
of parts that are read. -/
def readBracket (flags : Flags) : (fuel : Nat) → Read (CharSet × Nat)
  | 0, _ => none
  | fuel + 1, text => do
    let (negated, collected, rest) := readBracketStart flags text
    let (collected, rest) ← readSetItems flags fuel collected rest
    let set ← admit? flags (foldAndNegate flags negated (collected.value flags))
    some ((set, collected.depth + 1), rest)

/-- The items of a bracket up to its end. -/
def readSetItems (flags : Flags) : (fuel : Nat) → Collected → Read Collected
  | 0, _, _ => none
  | fuel + 1, collected, text =>
    match skip flags text with
    | [] => none
    | ']' :: rest => some (collected, rest)
    | '&' :: '&' :: rest =>
      readSetItems flags fuel (collected.operate flags .intersection) rest
    | '-' :: '-' :: rest => readSetItems flags fuel (collected.operate flags .difference) rest
    | '~' :: '~' :: rest =>
      readSetItems flags fuel (collected.operate flags .symmetricDifference) rest
    | '[' :: rest =>
      match readAsciiClass? flags rest with
      | some (members, rest) => do
        let set ← admit? flags members
        readSetItems flags fuel (collected.add set) rest
      | none => do
        let ((set, depth), rest) ← readBracket flags fuel rest
        let added := collected.add set
        readSetItems flags fuel { added with inner := max added.inner depth } rest
    | rest => do
      let (set, rest) ← readSetItem flags rest
      readSetItems flags fuel (collected.add set) rest

end

/-! ### Brackets of ASCII -/

theorem isAscii_of_admit? {flags : Flags} (ascii : flags.ascii) {members set : CharSet}
    (admitted : admit? flags members = some set) : set.isAscii := by
  rw [admit?, ascii, Bool.true_and, Option.ite_none_left_eq_some] at admitted
  obtain ⟨holds, same⟩ := admitted
  cases same
  simpa using holds

/-- **A bracket holds only ASCII where only ASCII counts**, wherever it stands. -/
theorem isAscii_of_readBracket {flags : Flags} (ascii : flags.ascii) {fuel depth : Nat}
    {text rest : List Char} {set : CharSet}
    (reads : readBracket flags fuel text = some ((set, depth), rest)) : set.isAscii := by
  cases fuel with
  | zero => cases reads
  | succ fuel =>
      obtain ⟨⟨collected, after⟩, -, closes⟩ := Option.bind_eq_some_iff.mp reads
      obtain ⟨set, admitted, same⟩ := Option.bind_eq_some_iff.mp closes
      cases same
      exact isAscii_of_admit? ascii admitted

/-- A bracket inside is refused, though the intersection around it would leave only ASCII. -/
example : readBracket { Flags.initial with ascii := true } 10 "[^a]&&b]".toList = none := by cbv

end Schemata.Pattern
