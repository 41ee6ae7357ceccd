/-
**The forest of a schema: invocations and their parameters.**

A forest is a list of parameters, of which the invocations of validators and suffixes have
parameters of their own. `Param.invocation?` and `Param.token?` pick the parameters of one sort out.
-/

import Schemata.Language.Lexeme
import Schemata.Numeral.Binary64
import Schemata.Relation

namespace Schemata

/-- What a failing node reports: an element of the bound errors, or a text. -/
inductive ErrorTag where
  | positional (index : Nat)
  | literal (text : String)
deriving DecidableEq, Repr

/-- What a value is compared with: a number, a text, a bound injection, or another field. -/
inductive Operand where
  | number (datum : Binary64.Datum)
  | text (text : String)
  | injection (index : Nat)
  | field (name : String)
deriving DecidableEq, Repr

/-- A relation with its operand. -/
structure Comparison where
  relation : Relation
  operand : Operand
deriving DecidableEq, Repr

mutual

/-- One node of a forest. -/
inductive Param where
  | validator (invocation : Invocation)
  | token (lexeme : Lexeme)
  | text (text : String)
  | injection (index : Nat)
  | comparison (comparison : Comparison)

/-- The invocation of a validator or a suffix: its name, its parameters and its error tag. -/
inductive Invocation where
  | mk (name : String) (params : List Param) (tag : Option ErrorTag)

end

namespace Invocation

/-- The name of the invoked validator. -/
def name : Invocation → String
  | mk name _ _ => name

/-- The parameters. -/
def params : Invocation → List Param
  | mk _ params _ => params

/-- The error tag. -/
def tag : Invocation → Option ErrorTag
  | mk _ _ tag => tag

/-- Whether a suffix is invoked: the names of suffixes start with `~`. -/
def isSuffix (invocation : Invocation) : Bool :=
  invocation.name.toList.head? = some '~'

end Invocation

namespace Param

/-- The invocation, if the node is one. -/
def invocation? : Param → Option Invocation
  | validator invocation => some invocation
  | _ => none

/-- The lexeme, if the node is a token of this kind. -/
def token? (kind : TokenKind) : Param → Option Lexeme
  | token lexeme => if lexeme.kind = kind then some lexeme else none
  | _ => none

end Param

end Schemata
