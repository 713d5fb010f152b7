import MetadataClient.Config.Basic
import MetadataClient.Listing
import MetadataClient.Queue

/-! A client writes and lists the collections of stores. It queues what may wait, and
writes all of it before it lists a store. -/
namespace MetadataClient

structure Client where
  queue : Queue
  service : Service

namespace Client

structure Outcome (α : Type) where
  client : Client
  answer : Except Error α
  warnings : List String

def usualQueueLimit : Nat := 1024

def usualPoolLimit : Nat := 8

def new (servers : List String) (store : DocumentStore) (queueLimit poolLimit : Nat) : Client :=
  ⟨.new queueLimit, .new (.new servers) poolLimit, store⟩

def overStore (config : Config) (store : DocumentStore) : Client :=
  .new config.metadata store usualQueueLimit usualPoolLimit

/-- The client of a valid configuration, given the store at its path. Without a
persistent backend there is no such store. -/
def ofConfig (config : Config) (kept : DocumentStore) : Except Error Client := do
  config.validate
  return overStore config (if config.backend.isPersistent then kept else .empty)

def ofQueueOutcome (outcome : Queue.Outcome) : Outcome Unit :=
  ⟨⟨outcome.queue, outcome.service⟩, outcome.answer, outcome.warnings⟩

def submit (client : Client) (batch : Batch) : Option (Outcome Unit) :=
  (client.queue.submit client.service batch).map ofQueueOutcome

def flush (client : Client) : Option (Outcome Unit) :=
  (client.queue.flush client.service).map ofQueueOutcome

def release (client : Client) (loan : Loan Connection) : Client :=
  { client with service.pool := client.service.pool.release loan }

/-- Takes a connection to the metadata backend and uses it. What the use answers says if
the connection is given back. -/
def withConnection {α : Type} (client : Client)
    (use : Client → Loan Connection → Except Error α × Client) : Option (Outcome α) :=
  let (reply, pool) := client.service.pool.acquire metadataIndex
  let client := { client with service.pool := pool }
  match reply with
  | .waiting => none
  | .granted loan =>
    let (answer, client) := use client loan
    some ⟨client, answer, []⟩
  | .refused index => some ⟨client, .error (.backendNotFound index), []⟩
  | .unreachable _ error => some ⟨client, .error error, reply.warnings⟩

def openListing (client : Client) (store : Store) : Option (Outcome Listing) :=
  client.withConnection fun client loan =>
    match client.service.store.find (Store.listing store.name) .scan with
    | .ok cursor => (.ok ⟨store, cursor, loan, false⟩, client)
    | .error error => (.error error.toError, client.release loan)

def listAfter (client : Client) (flushed : Except Error Unit) (store : Store) :
    Option (Outcome Listing) :=
  match flushed with
  | .error error => some ⟨client, .error error, []⟩
  | .ok () => client.openListing store

def list (client : Client) (store : Store) : Option (Outcome Listing) := do
  let flushed ← client.flush
  let outcome ← flushed.client.listAfter flushed.answer store
  return { outcome with warnings := flushed.warnings ++ outcome.warnings }

def free (client : Client) (listing : Listing) : Client :=
  client.release listing.loan

def collections (client : Client) (store : Store) :
    Option (Outcome (List (Except Error Collection))) :=
  (client.list store).map fun outcome =>
    match outcome with
    | ⟨client, .error error, warnings⟩ => ⟨client, .error error, warnings⟩
    | ⟨client, .ok listing, warnings⟩ =>
      let (collections, more) := listing.collect
      ⟨client.free listing, .ok collections, warnings ++ more⟩

def count (client : Client) (source : String) : Option (Outcome Nat) :=
  client.withConnection fun client loan =>
    ((client.service.store.count source).mapError StoreError.toError, client.release loan)

/-- Writes all that is queued for the last time. What cannot be written is lost. -/
def close (client : Client) : Option (DocumentStore × List String) :=
  client.flush.map fun outcome =>
    match outcome.answer with
    | .ok () => (outcome.client.service.store, outcome.warnings)
    | .error error =>
      (outcome.client.service.store, outcome.warnings ++
        ["Dropping " ++ toString outcome.client.queue.pending ++ " queued operations: "
          ++ error.message])

end Client
end MetadataClient
