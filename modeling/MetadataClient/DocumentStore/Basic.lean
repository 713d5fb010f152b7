import MetadataClient.Error
import MetadataClient.FindOptions

/-! A document store keeps documents under numbers in tables, one table for each
namespace. Its registry says which namespaces have been written to and which number
each of them gives out next. Every change is a transaction: it is carried out on a copy,
which takes the place of the store only if all of it succeeds. -/
namespace MetadataClient

abbrev Rows := SortedMap Nat Bytes

/-- A table of documents, or one that holds something else and cannot be opened. -/
inductive Table
  | documents (rows : Rows)
  | foreign

/-- The registry has the next number of every namespace that was written to. -/
structure DocumentStore where
  registry : NameMap Nat
  tables : NameMap Table

inductive Write
  | insert (source : String) (document : Document)
  | delete (source : String) (filter : Filter)

namespace DocumentStore

def empty : DocumentStore :=
  ⟨.empty, .empty⟩

def rows? (store : DocumentStore) (source : String) : Except StoreError (Option Rows) :=
  match store.tables.find? source with
  | none => .ok none
  | some (.documents rows) => .ok (some rows)
  | some .foreign => .error .table

def nextNumber (store : DocumentStore) (source : String) : Nat :=
  (store.registry.find? source).getD 0

/-- The rows whose documents the filter accepts. All rows have to be readable. -/
def accepted (filter : Filter) : List (Nat × Bytes) → Except StoreError (List Nat)
  | [] => .ok []
  | (number, bytes) :: rest => do
    let document ← (Document.decode bytes).mapError .document
    let numbers ← accepted filter rest
    return if filter.accepts document then number :: numbers else numbers

end DocumentStore

/-- The steps of a write transaction. They act on a copy of the store. A step that fails
ends the transaction and leaves the copy as it is at that point. -/
abbrev Transaction :=
  ExceptT StoreError (StateM DocumentStore)

namespace Transaction

def takeNumber (source : String) : Transaction Nat := do
  let store ← get
  let number := store.nextNumber source
  set { store with registry := store.registry.insert source (number + 1) }
  return number

def putRows (source : String) (rows : Rows) : Transaction Unit :=
  modify fun store => { store with tables := store.tables.insert source (.documents rows) }

def openTable (source : String) : Transaction Rows := do
  match (← get).rows? source with
  | .error error => throw error
  | .ok (some rows) => return rows
  | .ok none => do
    putRows source .empty
    return .empty

/-- Keeps a document under the next number of its namespace. The number is taken before
it is known if the table can be opened. -/
def insert (source : String) (document : Document) : Transaction Nat := do
  let number ← takeNumber source
  let rows ← openTable source
  putRows source (rows.insert number document.encode)
  return number

/-- Removes the documents that the filter accepts, and returns how many there were.
A namespace that was never written to has none, whatever its table holds. -/
def delete (source : String) (filter : Filter) : Transaction Nat := do
  if (← get).registry.contains source then
    let rows ← openTable source
    match DocumentStore.accepted filter rows.entries with
    | .error error => throw error
    | .ok numbers =>
      putRows source (numbers.foldl SortedMap.erase rows)
      return numbers.length
  else return 0

def perform : Write → Transaction Unit
  | .insert source document => do
    let _ ← insert source document
    return ()
  | .delete source filter => do
    let _ ← delete source filter
    return ()

/-- What is left of a transaction that began on a store. If every step succeeded, the copy
takes the place of the store. Otherwise the copy is dropped. -/
def settle {α : Type} (steps : Transaction α) (store : DocumentStore) :
    Except StoreError α × DocumentStore :=
  match steps.run.run store with
  | (.ok answer, copy) => (.ok answer, copy)
  | (.error error, _) => (.error error, store)

end Transaction

namespace DocumentStore

def commit {α : Type} (store : DocumentStore) (steps : Transaction α) :
    Except StoreError (DocumentStore × α) :=
  match steps.settle store with
  | (.ok answer, after) => .ok (after, answer)
  | (.error error, _) => .error error

def insert (store : DocumentStore) (source : String) (document : Document) :
    Except StoreError (DocumentStore × Nat) :=
  store.commit (.insert source document)

def insertMany (store : DocumentStore) (source : String) (documents : List Document) :
    Except StoreError (DocumentStore × List Nat) :=
  store.commit (documents.mapM (Transaction.insert source))

def delete (store : DocumentStore) (source : String) (filter : Filter) :
    Except StoreError (DocumentStore × Nat) :=
  store.commit (.delete source filter)

def apply (store : DocumentStore) (writes : List Write) : Except StoreError DocumentStore :=
  (store.commit (writes.forM Transaction.perform)).map (·.1)

/-- Removes a namespace with its table, of whatever kind. Says if it had been
written to. -/
def drop (store : DocumentStore) (source : String) : DocumentStore × Bool :=
  (⟨store.registry.erase source, store.tables.erase source⟩, store.registry.contains source)

def count (store : DocumentStore) (source : String) : Except StoreError Nat :=
  (store.rows? source).map fun rows => (rows.map (·.size)).getD 0

def namespaces (store : DocumentStore) : List String :=
  store.registry.keys

def withForeignTable (store : DocumentStore) (source : String) : DocumentStore :=
  { store with tables := store.tables.insert source .foreign }

/-- The same store with bytes put straight into a table, past the registry. -/
def withRow (store : DocumentStore) (source : String) (number : Nat) (bytes : Bytes) :
    DocumentStore :=
  match store.tables.find? source with
  | some .foreign => store
  | some (.documents rows) =>
    { store with tables := store.tables.insert source (.documents (rows.insert number bytes)) }
  | none =>
    { store with tables :=
        store.tables.insert source (.documents (.insert .empty number bytes)) }

end DocumentStore
end MetadataClient
