/-
**Sets of characters as ranges.**

A set lists disjoint ranges of code points by increasing position. `ofRanges` brings any list of
ranges into that form; complements are taken in a universe that ends at a given code point.
-/

import Schemata.Numeral.Hexadecimal

namespace Schemata.Unicode

/-- A set of code points: disjoint ranges, first and last included, by increasing position. -/
structure CharSet where
  ranges : List (Nat × Nat)
deriving DecidableEq, Repr, Inhabited

namespace CharSet

/-- The last code point. -/
def lastCodePoint : Nat := 0x10FFFF

/-- Whether a code point is in the set. -/
def holds (set : CharSet) (point : Nat) : Bool :=
  go set.ranges
where
  /-- The ranges end as soon as one starts beyond the point. -/
  go : List (Nat × Nat) → Bool
    | [] => false
    | (first, last) :: rest => if point < first then false else point ≤ last || go rest

/-- Whether a character is in the set. -/
def contains (set : CharSet) (c : Char) : Bool :=
  set.holds c.toNat

/-- Join ranges that overlap or touch, given by increasing first point. -/
def join : List (Nat × Nat) → List (Nat × Nat)
  | [] => []
  | range :: rest => go range rest
where
  /-- `range` is the range that may still grow. -/
  go (range : Nat × Nat) : List (Nat × Nat) → List (Nat × Nat)
    | [] => [range]
    | next :: rest =>
      if next.1 ≤ range.2 + 1 then go (range.1, max range.2 next.2) rest
      else range :: go next rest

/-- **The set of any list of ranges.** -/
def ofRanges (ranges : List (Nat × Nat)) : CharSet :=
  ⟨join ((ranges.filter fun (first, last) => first ≤ last).mergeSort
    fun first second => first.1 ≤ second.1)⟩

/-- No characters. -/
def empty : CharSet := ⟨[]⟩

/-- The set of one character. -/
def single (c : Char) : CharSet := ⟨[(c.toNat, c.toNat)]⟩

/-- The characters in one set or the other. -/
def union (first second : CharSet) : CharSet :=
  ofRanges (first.ranges ++ second.ranges)

/-- The characters of several sets. -/
def unionAll (sets : List CharSet) : CharSet :=
  ofRanges (sets.flatMap ranges)

/-- The gaps between ranges from a point up to the end of the universe. -/
def gaps (last : Nat) : Nat → List (Nat × Nat) → List (Nat × Nat)
  | start, [] => if start ≤ last then [(start, last)] else []
  | start, (first, final) :: rest =>
    (if start < first then [(start, first - 1)] else []) ++ gaps last (final + 1) rest

/-- The points up to `last` outside a set. -/
def complement (last : Nat) (set : CharSet) : CharSet :=
  ⟨gaps last 0 set.ranges⟩

/-- The points up to `last` in both sets. -/
def intersection (last : Nat) (first second : CharSet) : CharSet :=
  complement last (union (complement last first) (complement last second))

/-- The points up to `last` in the first set and not in the second. -/
def difference (last : Nat) (first second : CharSet) : CharSet :=
  intersection last first (complement last second)

/-- The characters of a set that another one does not hold. -/
def without (set taken : CharSet) : CharSet :=
  difference lastCodePoint set taken

/-- The points up to `last` in one of the sets and not in the other. -/
def symmetricDifference (last : Nat) (first second : CharSet) : CharSet :=
  union (difference last first second) (difference last second first)

/-- Whether every point of the set is ASCII. -/
def isAscii (set : CharSet) : Bool :=
  set.ranges.all fun (_, last) => last < 0x80

/-! ### Tables in text -/

/-- The ranges of a table: code points or pairs of them with a hyphen, with blanks between. -/
def tableRanges : List Char → List (Nat × Nat) :=
  go none 0 []
where
  /-- `opened` is the first point of a range whose last point is being read into `value`. -/
  go (opened : Option Nat) (value : Nat) (done : List (Nat × Nat)) :
      List Char → List (Nat × Nat)
    | [] => ((opened.getD value, value) :: done).reverse
    | c :: rest =>
      if c = '-' then go (some value) 0 done rest
      else if c = ' ' then go none 0 ((opened.getD value, value) :: done) rest
      else go opened (value * 16 + Hexadecimal.digitValue c) done rest

/-- **The set that the lines of a table list** by increasing position. -/
def ofTable (lines : List String) : CharSet :=
  ⟨lines.flatMap fun line => tableRanges line.toList⟩

end CharSet

end Schemata.Unicode
