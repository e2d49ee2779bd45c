import Clausal.Text.Basic

/-!
# Command-line arguments

Options have a long name and perhaps a letter; a value follows an option as the next argument, after
an equals sign, or right after the letter. Letters of options without a value may stand together.
Arguments are taken from left to right: what is wrong with one counts before a later question for
help, and a question for help before anything later.
-/

namespace Clausal

inductive UsageError
  /-- The arguments do not make up a command. -/
  | invalid
  /-- The arguments ask for help. -/
  | help
deriving DecidableEq

/-- What an option is for. -/
inductive OptionKind
  /-- It is there or not. -/
  | switch
  /-- It asks for help. -/
  | help
  /-- It has a text as its value. -/
  | text
  /-- It has a path as its value, which is not empty. -/
  | path
deriving DecidableEq

structure OptionSpec where
  long : String
  short : Option Char
  kind : OptionKind
  repeatable : Bool

/-- The arguments that a command knows. -/
structure ArgumentSpec where
  options : List OptionSpec
  /-- How many paths may stand without an option. -/
  positionals : Nat

/-- What arguments consist of. -/
inductive Argument
  | option (long : String) (value : String)
  | positional (text : String)
deriving DecidableEq

namespace Arguments

def verbose : OptionSpec := ⟨"verbose", some 'v', .switch, false⟩

def help : OptionSpec := ⟨"help", some 'h', .help, false⟩

def version : OptionSpec := ⟨"version", some 'V', .help, false⟩

/-- Whether an argument cannot be the value of an option before it. -/
def startsOption (arg : String) : Bool := arg.toList.head? == some '-' && arg ≠ "-"

/-- The values of an option, in order. -/
def valuesOf (long : String) (args : List Argument) : List String :=
  args.filterMap fun
    | .option name value => if name = long then some value else none
    | .positional _ => none

/-- The arguments that belong to no option. -/
def positionals (args : List Argument) : List String :=
  args.filterMap fun
    | .option .. => none
    | .positional text => some text

/-- What was found with one more option. -/
def addOption (o : OptionSpec) (value : String) (found : List Argument) :
    Except UsageError (List Argument) :=
  if !o.repeatable && !(valuesOf o.long found).isEmpty then .error .invalid
  else if o.kind = .path ∧ value = "" then .error .invalid
  else .ok (found ++ [.option o.long value])

/-- What was found with one more argument that belongs to no option. -/
def addPositional (limit : Nat) (found : List Argument) (text : String) :
    Except UsageError (List Argument) :=
  if (positionals found).length < limit ∧ text ≠ "" then .ok (found ++ [.positional text])
  else .error .invalid

/-- What is found with a group of letters, and the option that waits for a value after it. -/
def readLetters (options : List OptionSpec) (found : List Argument) :
    List Char → Except UsageError (List Argument × Option OptionSpec)
  | [] => .ok (found, none)
  | c :: rest =>
    match options.find? (·.short == some c) with
    | none => .error .invalid
    | some o =>
      match o.kind, rest with
      | .help, _ => .error .help
      | .switch, _ => do
        let found ← addOption o "" found
        readLetters options found rest
      | _, [] => .ok (found, some o)
      | _, '=' :: value => do return (← addOption o (String.ofList value) found, none)
      | _, value => do return (← addOption o (String.ofList value) found, none)

/-- What is found with a long option, and whether it waits for a value. -/
def readLong (options : List OptionSpec) (found : List Argument) (text : List Char) :
    Except UsageError (List Argument × Option OptionSpec) :=
  let (name, value) := match Text.splitAtFirst? '=' text with
    | some (name, value) => (name, some (String.ofList value))
    | none => (text, none)
  match options.find? (·.long == String.ofList name) with
  | none => .error .invalid
  | some o =>
    match o.kind, value with
    | .help, none => .error .help
    | .switch, none => do return (← addOption o "" found, none)
    | .help, some _ | .switch, some _ => .error .invalid
    | _, none => .ok (found, some o)
    | _, some value => do return (← addOption o value found, none)

/-- What is found with an argument that starts an option. -/
def readOption (options : List OptionSpec) (found : List Argument) (arg : String) :
    Except UsageError (List Argument × Option OptionSpec) :=
  match arg.toList with
  | '-' :: '-' :: text => readLong options found text
  | '-' :: text => readLetters options found text
  | _ => .error .invalid

/-- What is found in further arguments; `waiting` is the option whose value comes next. After `--`
there are no options. -/
def scan (spec : ArgumentSpec) (found : List Argument) : (waiting : Option OptionSpec) →
    List String → Except UsageError (List Argument)
  | none, [] => .ok found
  | some _, [] => .error .invalid
  | some o, arg :: rest =>
    if startsOption arg then .error .invalid
    else do
      let found ← addOption o arg found
      scan spec found none rest
  | none, arg :: rest =>
    if arg = "--" then rest.foldlM (addPositional spec.positionals) found
    else if startsOption arg then do
      let (found, waiting) ← readOption spec.options found arg
      scan spec found waiting rest
    else do
      let found ← addPositional spec.positionals found arg
      scan spec found none rest

/-- The parts of the arguments of a command, every one of which knows the common options. -/
def read (options : List OptionSpec) (positionals : Nat) (args : List String) :
    Except UsageError (List Argument) :=
  scan ⟨verbose :: help :: options, positionals⟩ [] none args

/-- The value of an option that has to be there. -/
def required (long : String) (args : List Argument) : Except UsageError String :=
  match valuesOf long args with
  | value :: _ => .ok value
  | [] => .error .invalid

/-- The value of an option that may be missing. -/
def optional (long : String) (args : List Argument) : Option String := (valuesOf long args).head?

end Arguments

end Clausal
