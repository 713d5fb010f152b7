import MetadataClient.Collection
import MetadataClient.DocumentStore.Basic

/-! Operations change which collections a store lists. A batch is a list of operations
that are carried out under one choice of semantics. -/
namespace MetadataClient

/-- Lists a document in the store of a name, or removes every collection of a name from such a
listing. -/
inductive Operation
  | create (store : String) (document : Document)
  | delete (store name : String)

namespace Operation

def store : Operation → String
  | create store _ => store
  | delete store _ => store

def target (operation : Operation) : String :=
  Store.listing operation.store

def write : Operation → Write
  | create store document => .insert (Store.listing store) document
  | delete store name =>
    .delete (Store.listing store) (.equals Collection.nameField (.string name))

end Operation

structure Batch where
  semantics : Semantics
  operations : List Operation

/-- How far a batch was carried out. The first `applied` operations are in the store;
without a failure these are all. -/
structure Execution where
  store : DocumentStore
  committed : List (List Operation)
  applied : Nat
  failure : Option StoreError

namespace Batch

def isEmpty (batch : Batch) : Bool :=
  batch.operations.isEmpty

def size (batch : Batch) : Nat :=
  batch.operations.length

def create (store : Store) (id : Uuid) (name : String) : Batch :=
  ⟨store.semantics, [.create store.name (Collection.mk id name store).document]⟩

def delete (store : Store) (name : String) : Batch :=
  ⟨store.semantics, [.delete store.name name]⟩

def executeEach (store : DocumentStore) (applied : Nat) : List Operation → Execution
  | [] => ⟨store, [], applied, none⟩
  | operation :: rest =>
    match store.apply [operation.write] with
    | .ok store =>
      let later := executeEach store (applied + 1) rest
      { later with committed := [operation] :: later.committed }
    | .error error => ⟨store, [], applied, some error⟩

/-- Carries the batch out, as a whole if its atomicity says so. -/
def execute (batch : Batch) (store : DocumentStore) : Execution :=
  match batch.semantics.atomicity with
  | .batch =>
    match store.apply (batch.operations.map Operation.write) with
    | .ok store => ⟨store, [batch.operations], batch.size, none⟩
    | .error error => ⟨store, [], 0, some error⟩
  | .operation | .none => executeEach store 0 batch.operations

def skip (batch : Batch) (applied : Nat) : Batch :=
  { batch with operations := batch.operations.drop applied }

end Batch
end MetadataClient
