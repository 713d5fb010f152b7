import MetadataClient.Document
import MetadataClient.Error
import MetadataClient.Store
import MetadataClient.Uuid

/-! Collections are the members of a store. Each is listed by a document that holds
its identifier, its name and the name of its store. -/
namespace MetadataClient

structure Collection where
  id : Uuid
  name : String
  store : Store
deriving DecidableEq

namespace Collection

def nameField : String := "name"

def storeField : String := "store"

def document (collection : Collection) : Document :=
  ((Document.empty.insert Document.idField (.string collection.id.text)).insert
    nameField (.string collection.name)).insert storeField (.string collection.store.name)

/-- The collection that a document lists. The identifier is looked at first, then the
name, then the store, which need not be there. -/
def ofDocument (store : Store) (document : Document) : Except Error Collection :=
  let malformed reason := .error (.malformedDocument (Store.listing store.name) reason)
  match document.getString? Document.idField with
  | none => malformed "missing _id"
  | some id =>
    match Uuid.parse id with
    | .error fault => malformed ("invalid _id '" ++ id ++ "': " ++ fault.message)
    | .ok uuid =>
      match document.getString? nameField with
      | none => malformed "missing name"
      | some name =>
        match document.getString? storeField with
        | none => .ok ⟨uuid, name, store⟩
        | some owner =>
          if owner = store.name then .ok ⟨uuid, name, store⟩
          else malformed ("collection '" ++ name ++ "' belongs to store '" ++ owner ++ "'")

end Collection
end MetadataClient
