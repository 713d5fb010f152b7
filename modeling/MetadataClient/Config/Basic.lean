import MetadataClient.Error
import MetadataClient.Text.Blank
import MetadataClient.Text.Split

/-! The configuration of a client: the hosts that serve data and metadata, and where
the client keeps what it stores. -/
namespace MetadataClient

/-- With the null backend metadata is kept as long as the program runs, and data not at all. -/
inductive StorageBackend
  | null
  | gio
  | posix
deriving DecidableEq, Repr

namespace StorageBackend

def all : List StorageBackend :=
  [null, gio, posix]

def name : StorageBackend → String
  | null => "null"
  | gio => "gio"
  | posix => "posix"

def ofName? (text : String) : Option StorageBackend :=
  all.find? (·.name == text)

def unknownMessage (text : String) : String :=
  "unknown storage backend: " ++ text

def isPersistent (backend : StorageBackend) : Bool :=
  backend ≠ null

theorem ofName?_name (backend : StorageBackend) : ofName? backend.name = some backend := by
  cases backend <;> decide

end StorageBackend

structure Config where
  data : List String
  metadata : List String
  backend : StorageBackend
  path : String
deriving DecidableEq, Repr

namespace Config

def standard : Config :=
  ⟨[], [], .posix, "/var/lib/tessera"⟩

/-- The entries of a list between commas, without the white space around them. Blank
entries are left out. -/
def splitList (list : String) : List String :=
  (((Text.split ',' list.toList).map Text.trim).filter (!·.isEmpty)).map String.ofList

def ofLists (data metadata : String) (backend : StorageBackend) (path : String) : Config :=
  ⟨splitList data, splitList metadata, backend, path⟩

def validate (config : Config) : Except Error Unit :=
  if config.data.isEmpty then .error (.configuration .noDataServers)
  else if config.metadata.isEmpty then .error (.configuration .noMetadataServers)
  else .ok ()

end Config
end MetadataClient
