/-
**What a program sees around it**: files, its input and the variables of its environment.

A `World` is a parameter of every program that needs it, over the monad in which files are read.
-/

namespace Schemata

/-- Why a file cannot be read. -/
inductive ReadFailure where
  | missing
  | directory
  | notDirectory
  | nameTooLong
  | forbidden
  | notText
deriving DecidableEq, Repr

/-- The wording of a failure. -/
def ReadFailure.message : ReadFailure → String
  | missing => "No such file or directory (os error 2)"
  | directory => "Is a directory (os error 21)"
  | notDirectory => "Not a directory (os error 20)"
  | nameTooLong => "File name too long (os error 36)"
  | forbidden => "Permission denied (os error 13)"
  | notText => "stream did not contain valid UTF-8"

/-- Variables with their values. -/
abbrev Variables := List (String × String)

/-- The value of a variable. -/
def Variables.find? (environment : Variables) (name : String) : Option String :=
  (List.find? (fun entry => entry.1 = name) environment).map Prod.snd

/-- The surroundings of a program. -/
structure World (m : Type → Type) where
  file : (path : String) → m (Except ReadFailure String)
  input : m (Except ReadFailure String)
  environment : Variables

end Schemata
