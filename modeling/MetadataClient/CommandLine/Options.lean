import MetadataClient.Config.Basic

/-! The options of the command that writes or prints a configuration. Its arguments are
read from left to right, and the first plea for help, question for the version or fault
among them decides. -/
namespace MetadataClient.CommandLine

inductive Flag
  | user
  | system
  | print
deriving DecidableEq, Repr

def Flag.name : Flag → String
  | user => "local"
  | system => "global"
  | print => "print"

def Flag.ofName? (name : String) : Option Flag :=
  [user, system, print].find? (·.name == name)

inductive Field
  | data
  | metadata
  | backend
  | path
  | logLevel
deriving DecidableEq, Repr

def Field.name : Field → String
  | data => "data"
  | metadata => "metadata"
  | backend => "storage-backend"
  | path => "storage-path"
  | logLevel => "log-level"

def Field.ofName? (name : String) : Option Field :=
  [data, metadata, backend, path, logLevel].find? (·.name == name)

inductive Stop
  | help
  | version
  | refused
deriving DecidableEq, Repr

inductive Token
  | stop (cause : Stop)
  | flag (flag : Flag)
  | field (field : Field) (attached : Option String)
  | ending
deriving DecidableEq, Repr

namespace Token

/-- An option of a full name, which may have a value attached. Names are not
abbreviated. -/
def ofName (name : String) (attached : Option String) : Token :=
  match Field.ofName? name, Flag.ofName? name, attached with
  | some known, _, _ => .field known attached
  | none, _, some _ => .stop .refused
  | none, some known, none => .flag known
  | none, none, none =>
    if name = "help" then .stop .help
    else if name = "version" then .stop .version
    else .stop .refused

/-- Of an argument that begins with one hyphen only its first letter counts. -/
def ofText (argument : String) : Token :=
  match argument.toList with
  | ['-', '-'] => .ending
  | '-' :: '-' :: long =>
    match Text.cut? '=' long with
    | some (name, value) => ofName (String.ofList name) (some (String.ofList value))
    | none => ofName (String.ofList long) none
  | '-' :: 'h' :: _ => .stop .help
  | '-' :: 'V' :: _ => .stop .version
  | _ => .stop .refused

/-- An argument may be the value of the option before it. A hyphen starts no value,
but it may be one. -/
def isValue (argument : String) : Bool :=
  argument == "-" || argument.toList.head? != some '-'

end Token

structure Options where
  flags : List Flag
  values : List (Field × String)
deriving DecidableEq, Repr

namespace Options

def empty : Options :=
  ⟨[], []⟩

def has (options : Options) (flag : Flag) : Bool :=
  flag ∈ options.flags

def value? (options : Options) (field : Field) : Option String :=
  options.values.lookup field

def addFlag (options : Options) (flag : Flag) : Except Stop Options :=
  if options.has flag then .error .refused
  else .ok { options with flags := flag :: options.flags }

/-- No option is given twice, and a path is never empty. -/
def addValue (options : Options) (field : Field) (value : String) : Except Stop Options :=
  if (options.value? field).isSome ∨ field = .path ∧ value = "" then .error .refused
  else .ok { options with values := (field, value) :: options.values }

def addAll (given : Options) : List String → Except Stop Options
  | [] => .ok given
  | argument :: rest =>
    match Token.ofText argument with
    | .stop cause => .error cause
    | .ending => if rest.isEmpty then .ok given else .error .refused
    | .flag flag => (given.addFlag flag).bind (addAll · rest)
    | .field field (some value) => (given.addValue field value).bind (addAll · rest)
    | .field field none =>
      match rest with
      | [] => .error .refused
      | value :: rest =>
        if Token.isValue value then (given.addValue field value).bind (addAll · rest)
        else .error .refused

def ofArguments (arguments : List String) : Except Stop Options :=
  empty.addAll arguments

end Options
end MetadataClient.CommandLine
