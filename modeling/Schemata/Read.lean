/-
**Reading texts from their front.**

A `Read` answers what it has read and the characters after it, or nothing if the text does not start
as it should. It is a state monad over the text that is left, so reads follow one another, and of
two alternatives the second starts where the first did.
-/

namespace Schemata

/-- A part of a text, read from its front. -/
abbrev Read (α : Type) := StateT (List Char) Option α

namespace Read

variable {α : Type}

/-- One of some characters. -/
def oneOf (allowed : List Char) : Read Char
  | c :: rest => if c ∈ allowed then some (c, rest) else none
  | [] => none

/-- One character with a property. -/
def satisfying (holds : Char → Bool) : Read Char
  | c :: rest => if holds c then some (c, rest) else none
  | [] => none

/-- A given text. -/
def exactly (expected : List Char) : Read Unit := fun text =>
  if expected.isPrefixOf text then some ((), text.drop expected.length) else none

/-- The longest run of characters with a property, which may be empty. -/
def run (holds : Char → Bool) : Read (List Char) := fun text =>
  some (text.takeWhile holds, text.dropWhile holds)

/-- Exactly `count` characters with a property. -/
def fixed (count : Nat) (holds : Char → Bool) : Read (List Char) := fun text =>
  let taken := text.take count
  if taken.length = count ∧ taken.all holds then some (taken, text.drop count) else none

/-- The next character, which is not read. -/
def peek : Read (Option Char) := fun text => some (text.head?, text)

/-- Refuse the text. -/
def refuse : Read α := fun _ => none

/-- Nothing, if the text goes on as it should, or else a given answer. -/
def optional (fallback : α) (read : Read α) : Read α := fun text =>
  match read text with
  | some answer => some answer
  | none => some (fallback, text)

/-- Whether a given text stands at the front, which is read if it does. -/
def accepts (expected : List Char) : Read Bool := fun text =>
  if expected.isPrefixOf text then some (true, text.drop expected.length) else some (false, text)

/-- What the whole of a text reads as. -/
def whole? (read : Read α) (text : String) : Option α :=
  match read text.toList with
  | some (answer, []) => some answer
  | _ => none

end Read

end Schemata
