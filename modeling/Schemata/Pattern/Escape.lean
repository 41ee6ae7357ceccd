/-
**Escapes in pattern texts.**

A backslash makes a literal of punctuation, spells characters by number, and names classes and
conditions. Letters and digits without a meaning are refused, and so are back references.
-/

import Schemata.Numeral.Hexadecimal
import Schemata.Pattern.Basic
import Schemata.Pattern.Flags
import Schemata.Read
import Schemata.Unicode.CaseFold
import Schemata.Unicode.Lookup

namespace Schemata.Pattern

open Unicode (CharSet)

/-- What an escape stands for. A literal that is spelled by two hexadecimal digits is marked, since
it means a byte where only ASCII counts. -/
inductive Atom where
  | literal (character : Char) (byte : Bool)
  | set (set : CharSet)
  | condition (condition : Assertion)

/-! ### Sets -/

/-- The last point of the universe in which sets are complemented. -/
def lastPoint (flags : Flags) : Nat :=
  if flags.ascii then 0xFF else CharSet.lastCodePoint

/-- Close a set under case if the flags ask for it. -/
def fold (flags : Flags) (set : CharSet) : CharSet :=
  if flags.ignoreCase then (if flags.ascii then set.foldAscii else set.foldCase) else set

/-- Close a set under case, and then complement it if it is negated. -/
def foldAndNegate (flags : Flags) (negated : Bool) (set : CharSet) : CharSet :=
  let folded := fold flags set
  if negated then folded.complement (lastPoint flags) else folded

/-- A set that may match: where only ASCII counts, it must hold nothing else. -/
def admit? (flags : Flags) (set : CharSet) : Option CharSet :=
  if flags.ascii && !set.isAscii then none else some set

/-- The set of a class letter. -/
def letterSet (flags : Flags) (letter : Char) : CharSet :=
  if flags.ascii then
    if letter = 'd' then ⟨[(0x30, 0x39)]⟩
    else if letter = 's' then ⟨[(0x9, 0xD), (0x20, 0x20)]⟩
    else ⟨[(0x30, 0x39), (0x41, 0x5A), (0x5F, 0x5F), (0x61, 0x7A)]⟩
  else
    if letter = 'd' then Unicode.Category.decimalNumber
    else if letter = 's' then Unicode.Property.whiteSpace
    else Unicode.Property.wordChar

/-- A class letter; a capital one negates. -/
def readLetterSet (flags : Flags) (letter : Char) : Option CharSet :=
  let small := letter.toLower
  let set := letterSet flags small
  admit? flags (if letter = small then set else set.complement (lastPoint flags))

/-! ### Characters by number -/

/-- Exactly `count` hexadecimal digits. -/
def readHexDigits (flags : Flags) : (count : Nat) → Read (List Char)
  | 0, text => some ([], text)
  | count + 1, text =>
    match skip flags text with
    | c :: rest =>
      if Hexadecimal.isDigit c then do
        let (digits, rest) ← readHexDigits flags count rest
        some (c :: digits, rest)
      else none
    | [] => none

/-- Hexadecimal digits up to a closing brace; `fuel` bounds their number. -/
def readHexBraced (flags : Flags) : (fuel : Nat) → Read (List Char)
  | 0, _ => none
  | fuel + 1, text =>
    match skip flags text with
    | '\x7d' :: rest => some ([], rest)
    | c :: rest =>
      if Hexadecimal.isDigit c then do
        let (digits, rest) ← readHexBraced flags fuel rest
        some (c :: digits, rest)
      else none
    | [] => none

/-- A character by number, after the letter that says how many digits there are. -/
def readHex (flags : Flags) (count : Nat) : Read Atom := fun text =>
  match skip flags text with
  | '\x7b' :: rest => do
    let (digits, rest) ← readHexBraced flags (rest.length + 1) rest
    if digits.isEmpty then none
    else
      let c ← Hexadecimal.character? (Hexadecimal.value digits)
      some (.literal c false, rest)
  | text => do
    let (digits, rest) ← readHexDigits flags count text
    let c ← Hexadecimal.character? (Hexadecimal.value digits)
    some (.literal c (count = 2), rest)

/-! ### Properties -/

/-- The characters up to a closing brace; `fuel` bounds their number. -/
def readBraced (flags : Flags) : (fuel : Nat) → Read (List Char)
  | 0, _ => none
  | fuel + 1, text =>
    match skip flags text with
    | '\x7d' :: rest => some ([], rest)
    | c :: rest => do
      let (characters, rest) ← readBraced flags fuel rest
      some (c :: characters, rest)
    | [] => none

/-- Split characters at the first one that is wanted. -/
def splitAtFirst? (wanted : Char) (characters : List Char) : Option (List Char × List Char) :=
  match characters.dropWhile (· ≠ wanted) with
  | [] => none
  | _ :: rest => some (characters.takeWhile (· ≠ wanted), rest)

/-- Split characters at the first `!=`. -/
def splitAtUnequal? : List Char → Option (List Char × List Char)
  | '!' :: '=' :: rest => some ([], rest)
  | [] => none
  | c :: rest => (splitAtUnequal? rest).map fun (before, after) => (c :: before, after)

/-- The set of a braced property, and whether it is written with an inequality. -/
def propertySet? (characters : List Char) : Option (CharSet × Bool) :=
  let valued (split : List Char × List Char) :=
    CharSet.valued? (String.ofList split.1) (String.ofList split.2)
  match splitAtUnequal? characters with
  | some split => (valued split).map (·, true)
  | none =>
    match (splitAtFirst? ':' characters).orElse fun _ => splitAtFirst? '=' characters with
    | some split => (valued split).map (·, false)
    | none => (CharSet.named? (String.ofList characters)).map (·, false)

/-- A property, after its letter; a capital letter negates. -/
def readProperty (flags : Flags) (negated : Bool) : Read Atom := fun text => do
  let (found, rest) ← match skip flags text with
    | [] => none
    | '\x7b' :: rest => do
      let (characters, rest) ← readBraced flags (rest.length + 1) rest
      let found ← propertySet? characters
      some (found, rest)
    | c :: rest =>
      if c = '\\' then none
      else do
        let set ← CharSet.named? c.toString
        some ((set, false), rest)
  if flags.ascii then none
  else some (.set (foldAndNegate flags (negated != found.2) found.1), rest)

/-! ### Conditions -/

/-- The condition on words that a name in braces stands for. -/
def namedBoundary? (ascii : Bool) (name : String) : Option Assertion :=
  if name = "start" then some (.wordStart ascii)
  else if name = "end" then some (.wordEnd ascii)
  else if name = "start-half" then some (.wordStartHalf ascii)
  else if name = "end-half" then some (.wordEndHalf ascii)
  else none

/-- Letters and hyphens up to a closing brace; `fuel` bounds their number. -/
def readBoundaryName (flags : Flags) : (fuel : Nat) → Read (List Char)
  | 0, _ => none
  | fuel + 1, text =>
    match skip flags text with
    | '\x7d' :: rest => some ([], rest)
    | c :: rest =>
      if c.isAlpha || c = '-' then do
        let (characters, rest) ← readBoundaryName flags fuel rest
        some (c :: characters, rest)
      else none
    | [] => none

/-- A boundary of words, which a name in braces may specialise. Braces that hold no name belong to a
count. -/
def readBoundary (flags : Flags) : Read Atom := fun text =>
  let plain := some (.condition (.wordBoundary flags.ascii), text)
  match text with
  | '\x7b' :: rest =>
    match skip flags rest with
    | [] => none
    | c :: _ =>
      if c.isAlpha || c = '-' then do
        let (name, rest) ← readBoundaryName flags (rest.length + 1) rest
        let condition ← namedBoundary? flags.ascii (String.ofList name)
        some (.condition condition, rest)
      else plain
  | _ => plain

/-! ### Escapes -/

/-- Whether a backslash makes a literal of a character: ASCII punctuation, blanks and controls, but
not the angle brackets. -/
def isEscapable (c : Char) : Bool :=
  c.toNat < 0x80 && !c.isAlpha && !c.isDigit && c ≠ '<' && c ≠ '>'

/-- **The escape after a backslash.** -/
def readEscape (flags : Flags) : Read Atom
  | [] => none
  | c :: rest =>
    let literal (value : Char) : Option (Atom × List Char) := some (.literal value false, rest)
    if c.isDigit then none
    else if c = 'x' then readHex flags 2 rest
    else if c = 'u' then readHex flags 4 rest
    else if c = 'U' then readHex flags 8 rest
    else if c = 'p' then readProperty flags false rest
    else if c = 'P' then readProperty flags true rest
    else if c ∈ ['d', 's', 'w', 'D', 'S', 'W'] then
      (readLetterSet flags c).map fun set => (.set set, rest)
    else if isEscapable c then literal c
    else if c = 'a' then literal '\x07'
    else if c = 'f' then literal '\x0c'
    else if c = 't' then literal '\t'
    else if c = 'n' then literal '\n'
    else if c = 'r' then literal '\r'
    else if c = 'v' then literal '\x0b'
    else if c = 'A' then some (.condition .textStart, rest)
    else if c = 'z' then some (.condition .textEnd, rest)
    else if c = 'b' then readBoundary flags rest
    else if c = 'B' then some (.condition (.noWordBoundary flags.ascii), rest)
    else if c = '<' then some (.condition (.wordStart flags.ascii), rest)
    else if c = '>' then some (.condition (.wordEnd flags.ascii), rest)
    else none

end Schemata.Pattern
