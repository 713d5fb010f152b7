import MetadataClient.Json.Scan

/-! What can go wrong, by cause, and the message for each cause. -/
namespace MetadataClient

inductive FileError
  | notFound
  | alreadyExists
  | notDirectory
  | isDirectory
  | nameTooLong
  | described (reason : String)
deriving DecidableEq, Repr

def FileError.message : FileError → String
  | notFound => "No such file or directory (os error 2)"
  | alreadyExists => "File exists (os error 17)"
  | notDirectory => "Not a directory (os error 20)"
  | isDirectory => "Is a directory (os error 21)"
  | nameTooLong => "File name too long (os error 36)"
  | described reason => reason

/-- Why a document store fails. Only `table` and `document` come from the documents
it holds; the others come from the medium that keeps them. -/
inductive StoreError
  | locked
  | damaged (detail : String)
  | table
  | transaction (detail : String)
  | commit (detail : String)
  | document (fault : Json.Fault)
  | file (cause : FileError)
deriving DecidableEq

def StoreError.message : StoreError → String
  | locked => "redb error: Database already open. Cannot acquire lock."
  | damaged detail => "redb storage error: DB corrupted: " ++ detail
  | table => "redb table error"
  | transaction detail => "redb transaction error: DB corrupted: " ++ detail
  | commit detail => "redb commit error: DB corrupted: " ++ detail
  | document _ => "document encoding error"
  | file cause => "io error: " ++ cause.message

inductive ConfigError
  | noDataServers
  | noMetadataServers
  | unreadable
  | described (reason : String)
deriving DecidableEq, Repr

def ConfigError.message : ConfigError → String
  | noDataServers => "no data servers configured"
  | noMetadataServers => "no metadata servers configured"
  | unreadable => "TOML parse error"
  | described reason => reason

inductive Error
  | metadataStore (reason : String)
  | malformedDocument (source reason : String)
  | noCurrentEntry
  | backendNotFound (index : Nat)
  | connectionFailed (reason : String)
  | configuration (fault : ConfigError)
  | file (cause : FileError)
deriving DecidableEq, Repr

def Error.message : Error → String
  | metadataStore reason => "metadata store error: " ++ reason
  | malformedDocument source reason => "malformed document in " ++ source ++ ": " ++ reason
  | noCurrentEntry => "iterator has no current entry"
  | backendNotFound index => "backend not found: " ++ toString index
  | connectionFailed reason => "connection failed: " ++ reason
  | configuration fault => "configuration error: " ++ fault.message
  | file cause => "config I/O error: " ++ cause.message

def StoreError.toError : StoreError → Error
  | file cause => .file cause
  | other => .metadataStore other.message

end MetadataClient
