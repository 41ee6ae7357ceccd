/-
**Patterns and what they match.**

A pattern is matched by moving a set of places of a text along it. A place lies before a character
or at the end, and a set of places is a list of flags, one for each place from the start to the end.

* `Pattern.advance` moves a set of places along a pattern: the result holds every place at which a
  match that starts at one of the given places can end;
* `Pattern.matchesIn` asks for a match anywhere in a text.

Every set is moved as a whole, so no place is visited twice for one repetition, and a match takes
time that is linear in the text for a pattern without nested repetitions.
-/

import Schemata.Unicode.Property

namespace Schemata

open Unicode (CharSet)

/-- Conditions on a place alone. `lineStart` and `lineEnd` may count `\r\n` as one line break, and
the conditions on words say whether only ASCII characters make words. -/
inductive Pattern.Assertion where
  | textStart
  | textEnd
  | lineStart (pairs : Bool)
  | lineEnd (pairs : Bool)
  | wordBoundary (ascii : Bool)
  | noWordBoundary (ascii : Bool)
  | wordStart (ascii : Bool)
  | wordEnd (ascii : Bool)
  | wordStartHalf (ascii : Bool)
  | wordEndHalf (ascii : Bool)
deriving DecidableEq, Repr

/-- A pattern. A repetition has a least number of rounds, and a greatest one unless it is open. -/
inductive Pattern where
  | empty
  | oneOf (set : CharSet)
  | assertion (condition : Pattern.Assertion)
  | sequence (first second : Pattern)
  | either (first second : Pattern)
  | repetition (body : Pattern) (least : Nat) (greatest : Option Nat)
deriving Inhabited

namespace Pattern

/-- A place of a text: the characters before and after it. -/
structure Place where
  before : Option Char
  after : Option Char

/-- The places of a text that is preceded by a character. -/
def places (before : Option Char) : List Char → List Place
  | [] => [⟨before, none⟩]
  | c :: rest => ⟨before, some c⟩ :: places (some c) rest

/-- The ASCII characters of words. -/
def isAsciiWord (c : Char) : Bool :=
  c.isAlpha || c.isDigit || c = '_'

/-- Whether there is a character, and it is one of a word. -/
def isWord (ascii : Bool) : Option Char → Bool
  | none => false
  | some c => if ascii then isAsciiWord c else isAsciiWord c || Unicode.Property.wordChar.contains c

/-- **Whether a condition holds at a place.** -/
def Assertion.holds (place : Place) : Assertion → Bool
  | .textStart => place.before = none
  | .textEnd => place.after = none
  | .lineStart pairs =>
    place.before = none || place.before = some '\n' ||
      (pairs && place.before = some '\r' && place.after ≠ some '\n')
  | .lineEnd pairs =>
    place.after = none || (pairs && place.after = some '\r') ||
      (place.after = some '\n' && !(pairs && place.before = some '\r'))
  | .wordBoundary ascii => isWord ascii place.before ≠ isWord ascii place.after
  | .noWordBoundary ascii => isWord ascii place.before = isWord ascii place.after
  | .wordStart ascii => !isWord ascii place.before && isWord ascii place.after
  | .wordEnd ascii => isWord ascii place.before && !isWord ascii place.after
  | .wordStartHalf ascii => !isWord ascii place.before
  | .wordEndHalf ascii => !isWord ascii place.after

/-! ### Sets of places -/

/-- A set of places: a flag for each place of the text. -/
abbrev Marks := List Bool

/-- No place is marked. -/
def Marks.isEmpty (marks : Marks) : Bool :=
  !marks.contains true

/-- The places in one set or the other. -/
def Marks.union (first second : Marks) : Marks :=
  first.zipWith (· || ·) second

/-- The places in the first set and not in the second. -/
def Marks.minus (first second : Marks) : Marks :=
  first.zipWith (fun held taken => held && !taken) second

/-- The places one character of the set after the marked ones. -/
def stepOver (set : CharSet) (text : List Char) (marks : Marks) : Marks :=
  false :: text.zipWith (fun c marked => marked && set.contains c) marks

/-- The marked places where a condition holds. -/
def keepWhere (condition : Assertion) (text : List Char) (marks : Marks) : Marks :=
  (places none text).zipWith (fun place marked => marked && condition.holds place) marks

/-- Move a set `rounds` times. Nothing changes any more once a round changes nothing. -/
def exactly (move : Marks → Marks) : (rounds : Nat) → Marks → Marks
  | 0, marks => marks
  | rounds + 1, marks =>
    let moved := move marks
    if moved = marks then marks else exactly move rounds moved

/-- Every place reached in at most `rounds` moves; `fresh` holds the places reached last. -/
def atMost (move : Marks → Marks) : (rounds : Nat) → (reached fresh : Marks) → Marks
  | 0, reached, _ => reached
  | rounds + 1, reached, fresh =>
    if fresh.isEmpty then reached
    else
      let next := (move fresh).minus reached
      atMost move rounds (reached.union next) next

/-- **The places where matches end** that start at the marked places. An open repetition needs no
more rounds than there are places. -/
def advance (text : List Char) : Pattern → Marks → Marks
  | .empty, marks => marks
  | .oneOf set, marks => stepOver set text marks
  | .assertion condition, marks => keepWhere condition text marks
  | .sequence first second, marks => advance text second (advance text first marks)
  | .either first second, marks => (advance text first marks).union (advance text second marks)
  | .repetition body least greatest, marks =>
    let entered := exactly (advance text body) least marks
    let further := match greatest with
      | some greatest => greatest - least
      | none => text.length + 1
    atMost (advance text body) further entered entered

/-- **Whether a pattern matches somewhere in a text.** -/
def matchesIn (pattern : Pattern) (text : String) : Bool :=
  let characters := text.toList
  let everywhere := List.replicate (characters.length + 1) true
  !(pattern.advance characters everywhere).isEmpty

end Pattern

end Schemata
