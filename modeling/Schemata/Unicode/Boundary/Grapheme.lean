/-
**Classes of characters at the boundaries of grapheme clusters.**

A grapheme cluster is what a reader takes for one character. Whether a cluster ends between two
characters depends on their classes, of which each character has at most one. `Grapheme.classes`
lists the classes under their names.
-/

import Schemata.Unicode.Property

namespace Schemata.Unicode.Grapheme

open CharSet (unionAll)
open Property (graphemeExtend emojiModifier prependedConcatenationMark)

/-- A carriage return. -/
def carriageReturn : CharSet := .single '\r'

/-- A line feed. -/
def lineFeed : CharSet := .single '\n'

/-- Characters that continue a cluster. -/
def extend : CharSet := unionAll [graphemeExtend, emojiModifier]

/-- The joiner of emoji. -/
def joiner : CharSet := .ofTable ["200D"]

/-- Controls, format characters and line breaks, which stand alone. -/
def control : CharSet :=
  (unionAll [Category.lineSeparator, Category.paragraphSeparator, Category.control, Category.format,
    Property.defaultIgnorableCodePoint.without Property.assigned]).without
    (unionAll [carriageReturn, lineFeed, joiner, graphemeExtend, prependedConcatenationMark])

/-- Signs that a cluster starts with, next to the concatenation marks. -/
def signsInFront : CharSet :=
  .ofTable ["D4E 111C2-111C3 113D1 1193F 11941 11A3A 11A84-11A89 11D46 11F02"]

/-- Characters that start a cluster and belong to what follows. -/
def prepend : CharSet := unionAll [prependedConcatenationMark, signsInFront]

/-- Spacing marks that stand alone. -/
def spacingMarkAlone : CharSet := .ofTable
  ["102B-102C 1038 1062-1064 1067-106D 1083 1087-108C 108F 109A-109C 1A61 1A63-1A64 AA7B AA7D",
   "11720-11721"]

/-- Marks that take up space within a cluster. -/
def spacingMark : CharSet :=
  (unionAll [Category.spacingMark, .ofTable ["E33 EB3"]]).without
    (unionAll [graphemeExtend, spacingMarkAlone])

/-- Leading consonants of Hangul. -/
def leadingJamo : CharSet := .ofTable ["1100-115F A960-A97C"]

/-- Vowels of Hangul and of alphabets that combine like it. -/
def vowelJamo : CharSet := .ofTable ["1160-11A7 D7B0-D7C6 16D63 16D67-16D6A"]

/-- Trailing consonants of Hangul. -/
def trailingJamo : CharSet := .ofTable ["11A8-11FF D7CB-D7FB"]

/-- The Hangul syllables without a trailing consonant, which are followed by those that add one of
the 27 trailing consonants. -/
def openSyllables : List Nat :=
  (List.range 399).map fun index => 0xAC00 + 28 * index

/-- Hangul syllables without a trailing consonant. -/
def openSyllable : CharSet := ⟨openSyllables.map fun point => (point, point)⟩

/-- Hangul syllables with a trailing consonant. -/
def closedSyllable : CharSet := ⟨openSyllables.map fun point => (point + 1, point + 27)⟩

/-- **The classes under their names.** -/
def classes : List (List String × CharSet) :=
  [(["cn", "control"], control), (["cr"], carriageReturn), (["ex", "extend"], extend),
    (["l"], leadingJamo), (["lf"], lineFeed), (["lv"], openSyllable), (["lvt"], closedSyllable),
    (["pp", "prepend"], prepend), (["ri", "regionalindicator"], Property.regionalIndicator),
    (["sm", "spacingmark"], spacingMark), (["t"], trailingJamo), (["v"], vowelJamo),
    (["zwj"], joiner)]

end Schemata.Unicode.Grapheme
