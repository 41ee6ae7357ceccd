/-
**Classes of characters at the boundaries of words.**

Whether a word ends between two characters depends on their classes, of which each character has at
most one. `Word.classes` lists the classes under their names.
-/

import Schemata.Unicode.Boundary.Grapheme
import Schemata.Unicode.Script

namespace Schemata.Unicode.Word

open CharSet (unionAll)
open Property (graphemeExtend prependedConcatenationMark)

/-! ### Marks and separators -/

/-- Marks, which belong to the character before them. -/
def extend : CharSet :=
  unionAll [graphemeExtend, Category.spacingMark, Property.emojiModifier]

/-- A space of no width. -/
def zeroWidthSpace : CharSet := .ofTable ["200B"]

/-- Format characters, which do not count. -/
def format : CharSet :=
  Category.format.without
    (unionAll [graphemeExtend, zeroWidthSpace, Grapheme.joiner, prependedConcatenationMark])

/-- Line breaks. -/
def newline : CharSet := .ofTable ["B-C 85 2028-2029"]

/-- Spaces that words do not keep together. -/
def space : CharSet :=
  Category.spaceSeparator.without (.ofTable ["A0 2007 202F"])

/-- A single quotation mark. -/
def singleQuote : CharSet := .single '\''

/-- A double quotation mark. -/
def doubleQuote : CharSet := .single '"'

/-- Punctuation inside words. -/
def midLetter : CharSet := .ofTable ["3A B7 387 55F 5F4 2027 FE13 FE55 FF1A"]

/-- Punctuation inside numbers. -/
def midNumber : CharSet := .ofTable ["2C 3B 37E 589 60C-60D 66C 7F8 2044 FE50 FE54 FF0C FF1B"]

/-- Punctuation inside words and numbers. -/
def midLetterOrNumber : CharSet := .ofTable ["2E 2018-2019 2024 FE52 FF07 FF0E"]

/-- Connectors of words, numbers and Katakana. -/
def connector : CharSet := unionAll [Category.connectorPunctuation, .ofTable ["202F"]]

/-! ### Letters and digits -/

/-- Signs in front of numbers, and further digits. -/
def signsOfNumbers : CharSet := .ofTable ["600-605 66B 6DD 890-891 8E2 19DA 110BD 110CD"]

/-- Digits. -/
def numeric : CharSet := unionAll [Category.decimalNumber, signsOfNumbers]

/-- The code points of a script, by its name. -/
def script (name : String) : CharSet :=
  ((Script.scripts.find? fun entry => entry.1.contains name).map Prod.snd).getD .empty

/-- Katakana, with the marks that stand between its characters. -/
def katakana : CharSet :=
  unionAll [script "katakana", .ofTable ["3031-3035 309B-309C 30A0 30FC FF70"]]

/-- Letters of Hebrew. -/
def hebrewLetter : CharSet :=
  (script "hebrew").intersection CharSet.lastCodePoint Category.otherLetter

/-- Letters of scripts that are written without spaces between words. -/
def unspacedLetter : CharSet := .ofTable
  ["E01-E30 E32-E33 E40-E46 E81-E82 E84 E86-E8A E8C-EA3 EA5 EA7-EB0 EB2-EB3 EBD EC0-EC4 EC6",
   "EDC-EDF 1000-102A 103F 1050-1055 105A-105D 1061 1065-1066 106E-1070 1075-1081 108E",
   "1780-17B3 17D7 17DC 1950-196D 1970-1974 1980-19AB 19B0-19C9 1A20-1A54 1AA7 A9E0-A9E4",
   "A9E6-A9EF A9FA-A9FE AA60-AA76 AA7A AA7E-AAAF AAB1 AAB5-AAB6 AAB9-AABD AAC0 AAC2 AADB-AADD",
   "11700-1171A 11740-11746"]

/-- Signs that count as letters. -/
def signsAmongLetters : CharSet := .ofTable
  ["2C2-2C5 2D2-2D7 2DE-2DF 2E5-2EB 2ED 2EF-2FF 55A-55C 55E 58A 5F3 70F A708-A716 A720-A721",
   "A789-A78A AB5B"]

/-- Letters of words. -/
def letter : CharSet :=
  (unionAll [Property.alphabetic, signsAmongLetters]).without
    (unionAll [Property.ideographic, katakana, script "hiragana", hebrewLetter, unspacedLetter,
      extend])

/-- **The classes under their names.** -/
def classes : List (List String × CharSet) :=
  [(["le", "aletter"], letter), (["cr"], Grapheme.carriageReturn),
    (["dq", "doublequote"], doubleQuote), (["extend"], extend),
    (["ex", "extendnumlet"], connector), (["fo", "format"], format),
    (["hl", "hebrewletter"], hebrewLetter), (["ka", "katakana"], katakana),
    (["lf"], Grapheme.lineFeed), (["ml", "midletter"], midLetter), (["mn", "midnum"], midNumber),
    (["mb", "midnumlet"], midLetterOrNumber), (["nl", "newline"], newline),
    (["nu", "numeric"], numeric), (["ri", "regionalindicator"], Property.regionalIndicator),
    (["sq", "singlequote"], singleQuote), (["wsegspace"], space), (["zwj"], Grapheme.joiner)]

end Schemata.Unicode.Word
