/-
**The arguments of the command.**

A command is a word with positional arguments and options behind it. An option starts with two
hyphens and takes its value behind an equals sign or from the next argument, which must not look
like an option. Behind a lone pair of hyphens every argument is positional.

`Request.ofArguments` reads all arguments.
-/

namespace Schemata.CommandLine

/-- Where the text of a schema comes from. -/
inductive Source where
  | file (path : String)
  | inline (text : String)
deriving DecidableEq, Repr

/-- What is to be done. -/
inductive Command where
  | tokens (source : Source)
  | ast (source : Source)
  | check (source : Source)
  | validate (source : Source) (input : String) (errors injections : Option String)
  | config
deriving DecidableEq, Repr

/-- A command, and the file of settings that it is to use. -/
structure Request where
  config : Option String
  command : Command
deriving DecidableEq, Repr

/-- Why arguments are not carried out: they ask for help, or they are not as they should be. -/
inductive Refusal where
  | help
  | noCommand
  | unknownCommand (word : String)
  | unknownArgument (word : String)
  | missingArgument (name : String)
  | missingValue (option : String)
  | repeatedOption (option : String)
  | needlessValue (option : String)
deriving DecidableEq, Repr

/-- The wording of a refusal. -/
def Refusal.message : Refusal → String
  | help =>
      "Usage: uvo [--config <CONFIG>] <tokens|ast|check|validate|config> [OPTIONS] [ARGUMENTS]"
  | noCommand => "a command is required"
  | unknownCommand word => "unrecognized subcommand '" ++ word ++ "'"
  | unknownArgument word => "unexpected argument '" ++ word ++ "'"
  | missingArgument name => "the argument <" ++ name ++ "> is required"
  | missingValue option => "a value is required for '--" ++ option ++ "'"
  | repeatedOption option => "the argument '--" ++ option ++ "' cannot be used multiple times"
  | needlessValue option => "the argument '--" ++ option ++ "' takes no value"

/-! ### The forms of commands -/

/-- How an option is written. -/
inductive OptionForm where
  | flag
  | text
  | path
deriving DecidableEq, Repr

/-- The form of a command: its options and its positional arguments. -/
structure Form where
  options : List (String × OptionForm)
  positionals : List String

/-- The option that every command takes. -/
def configOption : String × OptionForm := ("config", .text)

/-- The form of a command that reads a schema. -/
def schemaForm : Form :=
  ⟨[configOption, ("inline", .flag)], ["SCHEMA"]⟩

/-- **The commands with their forms.** -/
def forms : List (String × Form) :=
  [("tokens", schemaForm), ("ast", schemaForm), ("check", schemaForm),
    ("validate", ⟨schemaForm.options ++ [("errors", OptionForm.path), ("injections", .path)],
      ["SCHEMA", "INPUT"]⟩),
    ("config", ⟨[configOption], []⟩)]

/-! ### Reading -/

/-- What has been read: options with their values, and positional arguments. -/
structure Seen where
  options : List (String × String)
  positionals : List String

namespace Seen

/-- Nothing has been read. -/
def start : Seen := ⟨[], []⟩

/-- The value of an option. -/
def option? (name : String) (seen : Seen) : Option String :=
  (seen.options.find? fun entry => entry.1 = name).map Prod.snd

/-- Add an option. -/
def addOption (name : String) (form : OptionForm) (value : String) (seen : Seen) :
    Except Refusal Seen :=
  if (seen.option? name).isSome then .error (.repeatedOption name)
  else if form = .path ∧ value.isEmpty then .error (.missingValue name)
  else .ok { seen with options := (name, value) :: seen.options }

/-- Add a positional argument. -/
def addPositional (form : Form) (argument : String) (seen : Seen) : Except Refusal Seen :=
  if seen.positionals.length < form.positionals.length then
    .ok { seen with positionals := seen.positionals ++ [argument] }
  else .error (.unknownArgument argument)

end Seen

/-- Whether an argument looks like an option. -/
def looksLikeOption (argument : String) : Bool :=
  argument.toList.head? = some '-' && argument ≠ "-"

/-- The name of a long option, and its value behind an equals sign. -/
def longOption? (argument : String) : Option (String × Option String) :=
  match argument.toList with
  | '-' :: '-' :: rest =>
    let name := String.ofList (rest.takeWhile (· ≠ '='))
    match rest.dropWhile (· ≠ '=') with
    | _ :: value => some (name, some (String.ofList value))
    | [] => some (name, none)
  | _ => none

/-- Whether an argument asks for help by a single letter. -/
def asksForHelp (argument : String) : Bool :=
  argument.toList.take 2 = ['-', 'h']

/-- Read one argument that looks like an option. The answer says whether it takes its value from the
next argument. -/
def readOption (form : Form) (argument : String) (seen : Seen) :
    Except Refusal (Seen × Option (String × OptionForm)) :=
  match longOption? argument with
  | none => .error (if asksForHelp argument then .help else .unknownArgument argument)
  | some (name, value) =>
    match form.options.find? fun option => option.1 = name with
    | none =>
      .error (if name = "help" then (if value.isSome then .needlessValue name else .help)
        else .unknownArgument argument)
    | some (_, .flag) =>
      if value.isSome then .error (.needlessValue name)
      else (seen.addOption name .flag "").map (·, none)
    | some (_, kind) =>
      match value with
      | some value => (seen.addOption name kind value).map (·, none)
      | none => .ok (seen, some (name, kind))

/-- **Read the arguments of a command**; `waiting` is the option that takes the next one as its
value. -/
def readArguments (form : Form) (seen : Seen) (waiting : Option (String × OptionForm)) :
    List String → Except Refusal Seen
  | [] => match waiting with
    | some (name, _) => .error (.missingValue name)
    | none => .ok seen
  | argument :: rest =>
    match waiting with
    | some (name, kind) =>
      if looksLikeOption argument then .error (.missingValue name)
      else do
        let seen ← seen.addOption name kind argument
        readArguments form seen none rest
    | none =>
      if argument = "--" then
        rest.foldlM (fun seen argument => seen.addPositional form argument) seen
      else if looksLikeOption argument then do
        let (seen, waiting) ← readOption form argument seen
        readArguments form seen waiting rest
      else do
        let seen ← seen.addPositional form argument
        readArguments form seen none rest

/-! ### Requests -/

/-- The first positional argument as the source of a schema. -/
def sourceOf (seen : Seen) (schema : String) : Source :=
  if (seen.option? "inline").isSome then .inline schema else .file schema

/-- The command of a word. -/
def commandOf (word : String) (form : Form) (seen : Seen) : Except Refusal Command :=
  match seen.positionals, word with
  | [], "config" => .ok .config
  | [schema], "tokens" => .ok (.tokens (sourceOf seen schema))
  | [schema], "ast" => .ok (.ast (sourceOf seen schema))
  | [schema], "check" => .ok (.check (sourceOf seen schema))
  | [schema, input], "validate" =>
    .ok (.validate (sourceOf seen schema) input (seen.option? "errors")
      (seen.option? "injections"))
  | found, _ => .error (.missingArgument ((form.positionals[found.length]?).getD ""))

/-- Read a command and its arguments. The file of settings that is given behind the command wins. -/
def Request.ofCommand (config : Option String) (word : String) (arguments : List String) :
    Except Refusal Request :=
  match forms.find? fun entry => entry.1 = word with
  | none =>
    .error (if word = "help" ∧ arguments.all (fun argument => forms.any (·.1 = argument)) then .help
      else .unknownCommand word)
  | some (_, form) => do
    let seen ← readArguments form .start none arguments
    let command ← commandOf word form seen
    .ok ⟨(seen.option? "config").orElse fun _ => config, command⟩

/-- The form of the arguments before the command. -/
def globalForm : Form := ⟨[configOption], []⟩

/-- Read arguments up to the command; `waiting` is the option that takes the next one as its
value. -/
def Request.readGlobal (seen : Seen) (waiting : Option (String × OptionForm)) :
    List String → Except Refusal Request
  | [] => match waiting with
    | some (name, _) => .error (.missingValue name)
    | none => .error .noCommand
  | argument :: rest =>
    match waiting with
    | some (name, kind) =>
      if looksLikeOption argument then .error (.missingValue name)
      else do
        let seen ← seen.addOption name kind argument
        readGlobal seen none rest
    | none =>
      if argument = "--" then .error (.unknownArgument argument)
      else if looksLikeOption argument then do
        let (seen, waiting) ← readOption globalForm argument seen
        readGlobal seen waiting rest
      else ofCommand (seen.option? "config") argument rest

/-- **The request that arguments make.** -/
def Request.ofArguments (arguments : List String) : Except Refusal Request :=
  readGlobal .start none arguments

end Schemata.CommandLine
