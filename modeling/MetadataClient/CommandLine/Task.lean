import MetadataClient.CommandLine.Help
import MetadataClient.CommandLine.Options
import MetadataClient.Config.File

/-! What the command does. The arguments alone decide on the task, and a task reads or
writes one file at most. -/
namespace MetadataClient.CommandLine

inductive Owner
  | user
  | system
deriving DecidableEq, Repr

/-- What the options ask for. A configuration without an owner is written to the output. -/
inductive Request
  | print (owner : Owner)
  | write (config : Config) (owner : Option Owner)
deriving DecidableEq, Repr

namespace Options

def owner? (options : Options) : Option Owner :=
  if options.has .user then some .user
  else if options.has .system then some .system
  else none

def hasSettings (options : Options) : Bool :=
  [Field.data, .metadata, .backend, .path].any fun field => (options.value? field).isSome

def config? (options : Options) : Option Config := do
  let data ← options.value? .data
  let metadata ← options.value? .metadata
  let backend ← (options.value? .backend).bind StorageBackend.ofName?
  let path ← options.value? .path
  return Config.ofLists data metadata backend path

/-- No file has two owners, and a configuration is printed from a file and without any
values. -/
def request? (options : Options) : Option Request :=
  if options.has .user ∧ options.has .system then none
  else if options.has .print then
    if options.hasSettings then none else options.owner?.map .print
  else options.config?.map (.write · options.owner?)

end Options

structure Outcome where
  status : Nat
  printed : String
  failure : Option String
deriving DecidableEq, Repr

namespace Outcome

def success (printed : String) : Outcome :=
  ⟨0, printed, none⟩

def refused (printed : String) : Outcome :=
  ⟨1, printed, none⟩

def failed (reason : String) : Outcome :=
  ⟨1, "", some ("Error: " ++ reason)⟩

end Outcome

/-- The file of an owner. The directory for the configurations of the user may be
unknown. -/
def Owner.path (directory : Option String) : Owner → Except Outcome String
  | user =>
    match directory with
    | some directory => .ok (directory ++ "/tessera/tessera.toml")
    | none => .error (.failed "could not resolve the user config directory")
  | system => .ok "/etc/tessera/tessera.toml"

inductive Task
  | finished (outcome : Outcome)
  | read (path : String) (finish : Except FileError String → Outcome)
  | save (path text : String) (finish : Except FileError Unit → Outcome)

namespace Task

def printFile (path : String) : Task :=
  .read path fun
    | .ok text => .success text
    | .error cause =>
      .failed ("failed to read " ++ path ++ "\n\nCaused by:\n    " ++ cause.message)

def writeFile (path : String) (config : Config) : Task :=
  .save path config.text fun
    | .ok () => .success ""
    | .error cause =>
      .failed ("failed to write " ++ path ++ "\n\nCaused by:\n    0: "
        ++ (Error.file cause).message ++ "\n    1: " ++ cause.message)

/-- A configuration that is not valid is written nowhere. -/
def ofRequest (directory : Option String) : Request → Task
  | .print owner =>
    match owner.path directory with
    | .error outcome => .finished outcome
    | .ok path => printFile path
  | .write config none =>
    match config.validate with
    | .error error => .finished (.failed error.message)
    | .ok () => .finished (.success config.text)
  | .write config (some owner) =>
    match owner.path directory, config.validate with
    | .error outcome, _ => .finished outcome
    | .ok _, .error error => .finished (.failed error.message)
    | .ok path, .ok () => writeFile path config

def ofOptions (directory : Option String) (options : Options) : Task :=
  match options.request? with
  | none => .finished (.refused helpText)
  | some request => ofRequest directory request

def ofArguments (directory : Option String) (arguments : List String) : Task :=
  match Options.ofArguments arguments with
  | .error .help => .finished (.success helpText)
  | .error .version => .finished (.success versionText)
  | .error .refused => .finished (.refused "")
  | .ok options => ofOptions directory options

def run (task : Task) (tree : FileTree) : Outcome × FileTree :=
  match task with
  | finished outcome => (outcome, tree)
  | read path finish => (finish (tree.read (.ofText path)), tree)
  | save path text finish =>
    let (answer, after) := tree.save (.ofText path) text
    (finish answer, after)

end Task
end MetadataClient.CommandLine
