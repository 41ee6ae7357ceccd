/-
**Classes of characters at the boundaries of sentences.**

Whether a sentence ends between two characters depends on their classes, of which each character has
at most one. `Sentence.classes` lists the classes under their names.
-/

import Schemata.Unicode.Boundary.Word

namespace Schemata.Unicode.Sentence

open CharSet (unionAll)
open Property (graphemeExtend)

/-- Marks, which belong to the character before them. -/
def extend : CharSet :=
  unionAll [graphemeExtend, Category.spacingMark, Grapheme.joiner]

/-- Separators of paragraphs. -/
def separator : CharSet := .ofTable ["85 2028-2029"]

/-- Spaces within a paragraph. -/
def space : CharSet :=
  Property.whiteSpace.without (unionAll [separator, Grapheme.carriageReturn, Grapheme.lineFeed])

/-- Format characters, which do not count. -/
def format : CharSet := unionAll [Word.format, Word.zeroWidthSpace, .ofTable ["70F"]]

/-! ### Letters and digits -/

/-- Small letters of Georgian, which do not tell where a sentence starts. -/
def georgianSmall : CharSet := .ofTable ["10D0-10FA 10FD-10FF"]

/-- Capital letters of Georgian. -/
def georgianCapital : CharSet := .ofTable ["1C90-1CBA 1CBD-1CBF"]

/-- Small letters. -/
def lower : CharSet := Property.lowercase.without (unionAll [graphemeExtend, georgianSmall])

/-- Capital letters. -/
def upper : CharSet :=
  (unionAll [Property.uppercase, Category.titlecaseLetter]).without georgianCapital

/-- Letters without case. -/
def otherLetter : CharSet :=
  (unionAll [Property.alphabetic, .ofTable ["5F3"]]).without (unionAll [lower, upper, extend])

/-- Digits, and the separator of Arabic numbers. -/
def numeric : CharSet := unionAll [Word.numeric, .ofTable ["66C"]]

/-! ### Punctuation -/

/-- Full stops, which need not end a sentence. -/
def fullStop : CharSet := .ofTable ["2E 2024 FE52 FF0E"]

/-- Marks that end a sentence. -/
def terminator : CharSet := Property.sentenceTerminal.without fullStop

/-- Marks inside sentences. -/
def continuation : CharSet := .ofTable
  ["2C-2D 3A-3B 37E 55D 60C-60D 7F8 1802 1808 2013-2014 3001 FE10-FE11 FE13-FE14 FE31-FE32",
   "FE50-FE51 FE54-FE55 FE58 FE63 FF0C-FF0D FF1A-FF1B FF64"]

/-- Quotation marks that their category does not tell from other characters. -/
def ornamentalQuote : CharSet := .ofTable ["22 27 275B-2760 2E00-2E01 2E06-2E08 2E0B 1F676-1F678"]

/-- Brackets and quotation marks. -/
def close : CharSet :=
  unionAll [Category.openPunctuation, Category.closePunctuation, Category.initialPunctuation,
    Category.finalPunctuation, ornamentalQuote]

/-- **The classes under their names.** -/
def classes : List (List String × CharSet) :=
  [(["at", "aterm"], fullStop), (["cr"], Grapheme.carriageReturn), (["cl", "close"], close),
    (["ex", "extend"], extend), (["fo", "format"], format), (["lf"], Grapheme.lineFeed),
    (["lo", "lower"], lower), (["nu", "numeric"], numeric), (["le", "oletter"], otherLetter),
    (["sc", "scontinue"], continuation), (["st", "sterm"], terminator), (["se", "sep"], separator),
    (["sp"], space), (["up", "upper"], upper)]

end Schemata.Unicode.Sentence
