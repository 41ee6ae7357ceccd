/-
**Order relations**: the six operators of `compare` and `length`.
-/

namespace Schemata

/-- A relation between a value and a bound. -/
inductive Relation where
  | greater
  | atLeast
  | less
  | atMost
  | equal
  | different
deriving DecidableEq, Repr

namespace Relation

/-- Every relation. -/
def all : List Relation :=
  [greater, atLeast, less, atMost, equal, different]

/-- The operator of a relation. -/
def symbol : Relation → String
  | greater => ">"
  | atLeast => ">="
  | less => "<"
  | atMost => "<="
  | equal => "="
  | different => "!="

/-- The relation of an operator. -/
def ofSymbol? (symbol : String) : Option Relation :=
  all.find? fun relation => relation.symbol = symbol

/-- **Whether the relation holds** between two values that compare so. -/
def holds : Relation → Ordering → Bool
  | greater, ordering => ordering = .gt
  | atLeast, ordering => ordering ≠ .lt
  | less, ordering => ordering = .lt
  | atMost, ordering => ordering ≠ .gt
  | equal, ordering => ordering = .eq
  | different, ordering => ordering ≠ .eq

end Relation

end Schemata
