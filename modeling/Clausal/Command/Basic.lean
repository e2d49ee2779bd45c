import Clausal.Command.Arguments
import Clausal.Command.Files
import Clausal.Command.Report
import Clausal.Record.Payload
import Clausal.Registry.Payload
import Clausal.Rule.Payload

/-!
# Commands

A command reads some files and prints. It is run on a function that gives the text of each file, or
the reason why there is none, so that everything but reading and printing is decided here.
-/

namespace Clausal

/-- What the commands that write programs have in common. -/
structure RenderInput where
  registry : String
  dialect : String
  config : Option String
deriving DecidableEq

/-- What the program is asked to do. -/
inductive Command
  | check (registry : String)
  | render (input : RenderInput) (rule : String) (view : List String) (library : Option String)
  | facts (input : RenderInput) (records : String)
  | dialects
deriving DecidableEq

structure Printed where
  output : String
  /-- Lines about what was done. -/
  notes : List String
deriving DecidableEq

namespace Command

open Arguments

/-- The options of the commands that write programs. -/
def inputOptions : List OptionSpec :=
  [⟨"registry", none, .path, false⟩, ⟨"dialect", some 'd', .text, false⟩,
    ⟨"config", none, .path, false⟩]

/-- What the commands that write programs have in common. -/
def readInput (args : List Argument) : Except UsageError RenderInput := do
  return {
    registry := ← required "registry" args
    dialect := ← required "dialect" args
    config := optional "config" args }

def names : List String := ["check", "render", "facts", "dialects", "help"]

/-- What comes of a question for help about some topics: there is help about each command. -/
def helpAbout : List String → UsageError
  | [] => .help
  | [name] => if name ∈ names then .help else .invalid
  | _ => .invalid

/-- The command with the given name and arguments. -/
def ofName (name : String) (args : List String) : Except UsageError Command :=
  if name = "check" then do
    match positionals (← Arguments.read [] 1 args) with
    | registry :: _ => return .check registry
    | [] => throw .invalid
  else if name = "render" then do
    let args ← Arguments.read (inputOptions ++ [⟨"rule", none, .path, false⟩,
      ⟨"view", none, .text, true⟩, ⟨"library", none, .path, false⟩]) 0 args
    return .render (← readInput args) (← required "rule" args)
      ((valuesOf "view" args).flatMap (·.splitOn ",")) (optional "library" args)
  else if name = "facts" then do
    let args ← Arguments.read (inputOptions ++ [⟨"records", none, .path, false⟩]) 0 args
    return .facts (← readInput args) (← required "records" args)
  else if name = "dialects" then do
    let _ ← Arguments.read [] 0 args
    return .dialects
  else if name = "help" then .error (helpAbout args)
  else .error .invalid

/-- The command of arguments, when the options in `found` stand before them. -/
def ofArgumentsAfter (found : List Argument) : List String → Except UsageError Command
  | [] => .error .invalid
  | arg :: rest =>
    if startsOption arg then do
      let (found, _) ← readOption [verbose, help, version] found arg
      ofArgumentsAfter found rest
    else ofName arg rest

/-- The command of some arguments. Options that all commands share may stand before its name. -/
def ofArguments (args : List String) : Except UsageError Command := ofArgumentsAfter [] args

/-- The files that a command may read. -/
def paths : Command → List String
  | .check registry => [registry]
  | .render input rule _ library =>
    input.registry :: rule :: (library.toList ++ input.config.toList)
  | .facts input records => input.registry :: records :: input.config.toList
  | .dialects => []

def readFile (files : Files) (path : String) : Except Report String :=
  (files path).mapError fun e => ⟨"failed to read " ++ path, [.plain e.message]⟩

def loadRegistry (files : Files) (path : String) : Except Report Registry := do
  let text ← readFile files path
  (Registry.ofText text).mapError fun e => ⟨"invalid registry " ++ path, e.causes⟩

/-- The configuration of a file, or the default one when there is no file. -/
def loadConfig (files : Files) (path : Option String) : Except Report RenderConfig :=
  match path with
  | none => .ok .default
  | some path => do
    let text ← readFile files path
    (RenderConfig.ofText text).mapError fun e => ⟨"invalid render config " ++ path, e.causes⟩

def loadRule (files : Files) (path : String) (source : Source) : Except Report Rule := do
  let text ← readFile files path
  (Rule.ofText text source).mapError fun e => ⟨"invalid rule payload " ++ path, e.causes⟩

/-- The library of a file, if there is a file. -/
def loadLibrary (files : Files) (path : Option String) : Except Report (Option Library) :=
  path.mapM fun path => do
    let text ← readFile files path
    (Library.ofText text).mapError fun e => ⟨"invalid library " ++ path, e.causes⟩

def loadRecordPayloads (files : Files) (path : String) :
    Except Report (List RecordPayload) := do
  let text ← readFile files path
  (Decode.ofText (Decode.list RecordPayload.decode) text).mapError fun e =>
    ⟨"records must be a JSON array: " ++ path, [.reader e.message]⟩

/-- The records of payloads, the first of which has the given index. -/
def loadRecords (source : Source) (index : Nat) : List RecordPayload → Except Report (List Record)
  | [] => .ok []
  | p :: rest => do
    let r ← (Record.ofPayload p source).mapError fun e =>
      (⟨s!"record #{Text.decimal index} ({p.schemaId})", e.causes⟩ : Report)
    return r :: (← loadRecords source (index + 1) rest)

/-- The view of some identifiers; blank ones do not count, and none at all means all predicates. -/
def buildView (registry : Registry) (ids : List String) : Except Report View :=
  match (ids.map Text.trim).filter (· ≠ "") with
  | [] => .ok (.full registry)
  | ids => (View.ofIds registry ids).mapError fun e => ⟨"invalid view: " ++ e.message, []⟩

def findDialect (name : String) : Except Report Dialect :=
  (Renderers.standard.find name).mapError fun e => ⟨e.message, []⟩

def predicateLine (s : Schema) : String :=
  let kind := s.kind.text
  kind ++ String.ofList (List.replicate (5 - kind.length) ' ') ++
    s!" {s.name}/{Text.decimal s.arity} {s.id}\n"

def runCheck (files : Files) (path : String) : Except Report Printed := do
  let registry ← loadRegistry files path
  let relations := registry.predicates.filter (·.kind == .rel)
  return {
    output := String.join (registry.predicates.map predicateLine)
    notes := [s!"ok {Text.decimal registry.size} predicates " ++
      s!"({Text.decimal relations.length} relations) in {path}"] }

def runRender (files : Files) (input : RenderInput) (rule : String)
    (view : List String) (library : Option String) : Except Report Printed := do
  let registry ← loadRegistry files input.registry
  let r ← loadRule files rule registry.get
  let v ← buildView registry view
  let l ← loadLibrary files library
  let d ← findDialect input.dialect
  let config ← loadConfig files input.config
  let text ← (d.compile r v ⟨registry.get, l, none, config⟩).mapError fun e =>
    (⟨s!"cannot render rule `{r.head.name}` as {input.dialect}", e.causes⟩ : Report)
  return ⟨text ++ "\n", []⟩

def runFacts (files : Files) (input : RenderInput) (records : String) :
    Except Report Printed := do
  let registry ← loadRegistry files input.registry
  let payloads ← loadRecordPayloads files records
  let rs ← loadRecords registry.get 0 payloads
  let d ← findDialect input.dialect
  let config ← loadConfig files input.config
  let text ← (d.renderFacts ⟨registry.get, none, none, config⟩ rs).mapError fun e =>
    (⟨s!"cannot render {Text.decimal rs.length} records as {input.dialect}", e.causes⟩ : Report)
  return ⟨text ++ "\n", []⟩

def dialectLine (d : Dialect) : String := d.name ++ (if d.isStub then " (stub)" else "") ++ "\n"

/-- What a command prints, from the texts of files. -/
def run (files : Files) : Command → Except Report Printed
  | .check registry => runCheck files registry
  | .render input rule view library => runRender files input rule view library
  | .facts input records => runFacts files input records
  | .dialects => .ok ⟨String.join (Renderers.standard.dialects.map dialectLine), []⟩

end Command

end Clausal
