import MetadataClient.Config.Basic
import MetadataClient.Toml.Reader

/-! A configuration as TOML text, with one section for the servers and one for the
storage. -/
namespace MetadataClient.Config

open Toml (Value)

def printList (texts : List String) : List Char :=
  '[' :: ((texts.map fun text => Toml.Quoted.print text.toList).intersperse [',', ' ']).flatten
    ++ [']']

def textChars (config : Config) : List Char :=
  "[servers]\ndata = ".toList ++ printList config.data ++ "\nmetadata = ".toList
    ++ printList config.metadata ++ "\n\n[storage]\nbackend = ".toList
    ++ Toml.Quoted.print config.backend.name.toList ++ "\npath = ".toList
    ++ Toml.Quoted.print config.path.toList ++ ['\n']

def text (config : Config) : String :=
  String.ofList config.textChars

/-- A setting of a section. A section is a table, or an array with its settings in
order. -/
def setting? (name : String) (position : Nat) : Value → Option Value
  | .table entries => Entries.find? name entries
  | .array items => items[position]?
  | _ => none

def text? : Value → Option String
  | .string text => some text
  | _ => none

def texts? : Value → Option (List String)
  | .array items => items.mapM text?
  | _ => none

def isEmpty : Value → Bool
  | .array items => items.isEmpty
  | .table entries => entries.isEmpty
  | _ => false

/-- A backend is written as its name, or as the only name in a table, with nothing
under it. -/
def backend? : Value → Option StorageBackend
  | .string name => StorageBackend.ofName? name
  | .table [(name, value)] => if isEmpty value then StorageBackend.ofName? name else none
  | _ => none

def ofEntries? (entries : List (String × Value)) : Option Config := do
  let servers ← Entries.find? "servers" entries
  let data ← (← setting? "data" 0 servers) |> texts?
  let metadata ← (← setting? "metadata" 1 servers) |> texts?
  let storage ← Entries.find? "storage" entries
  let backend ← (← setting? "backend" 0 storage) |> backend?
  let path ← (← setting? "path" 1 storage) |> text?
  return ⟨data, metadata, backend, path⟩

/-- The valid configuration that a text sets. What else the text sets does not count. -/
def parse (text : String) : Except Error Config :=
  match (Toml.parse text).bind ofEntries? with
  | none => .error (.configuration .unreadable)
  | some config => config.validate.map fun () => config

end MetadataClient.Config
