import MetadataClient.Connection
import MetadataClient.Operation

/-! A queue holds back batches whose persistency allows it. They are written when the
queue is flushed, when it is full, or ahead of a batch that cannot be held back, so that
operations always reach the store in the order in which they were submitted. What
cannot be written stays in the queue. -/
namespace MetadataClient

structure Service where
  pool : MetadataPool
  store : DocumentStore

structure Queue where
  batches : List Batch
  pending : Nat
  limit : Nat
  flushes : Nat

/-- Where the execution of several batches stopped: at which batch, and behind how many of its
operations. -/
structure Stop where
  batch : Nat
  applied : Nat
  error : StoreError

/-- How far several batches were carried out, with the operations of every transaction that was
committed. -/
structure Progress where
  store : DocumentStore
  committed : List (List Operation)
  stop : Option Stop

namespace Queue

def new (limit : Nat) : Queue :=
  ⟨[], 0, limit, 0⟩

def enqueue (queue : Queue) (batch : Batch) : Queue :=
  { queue with batches := queue.batches ++ [batch], pending := queue.pending + batch.size }

def take (queue : Queue) : List Batch × Queue :=
  (queue.batches, { queue with batches := [], pending := 0 })

/-- Puts batches back in front of what has been queued since. -/
def requeue (queue : Queue) (batches : List Batch) : Queue :=
  let batches := batches ++ queue.batches
  { queue with batches, pending := (batches.flatMap Batch.operations).length }

def execute (store : DocumentStore) (position : Nat) : List Batch → Progress
  | [] => ⟨store, [], none⟩
  | batch :: rest =>
    match batch.execute store with
    | ⟨store, committed, _, none⟩ =>
      let later := execute store (position + 1) rest
      { later with committed := committed ++ later.committed }
    | ⟨store, committed, applied, some error⟩ =>
      ⟨store, committed, some ⟨position, applied, error⟩⟩

def unwritten (batches : List Batch) (stop : Stop) : List Batch :=
  match batches.drop stop.batch with
  | [] => []
  | batch :: rest => batch.skip stop.applied :: rest

/-- How a call ends that writes: with the queue and the service after it, the operations
of every transaction that it committed, what it answers and the warnings it gives. -/
structure Outcome where
  queue : Queue
  service : Service
  committed : List (List Operation)
  answer : Except Error Unit
  warnings : List String

/-- Writes the taken batches and then the immediate one, if any, over one connection.
An immediate batch that fails is not queued. Nothing comes back if there is no
connection to be had without waiting. -/
def write (queue : Queue) (service : Service) (taken : List Batch) (immediate : Option Batch) :
    Option Outcome :=
  let batches := taken ++ immediate.toList
  if batches.isEmpty then some ⟨queue, service, [], .ok (), []⟩
  else
    let (reply, pool) := service.pool.acquire metadataIndex
    match reply with
    | .waiting => none
    | .granted loan =>
      let progress := execute service.store 0 batches
      let service := ⟨pool.release loan, progress.store⟩
      match progress.stop with
      | none => some ⟨queue, service, progress.committed, .ok (), []⟩
      | some stop =>
        let error := stop.error.toError
        let warning := "Metadata flush failed at batch " ++ toString (stop.batch + 1) ++ " of "
          ++ toString batches.length ++ " after " ++ toString stop.applied ++ " operations: "
          ++ error.message
        some ⟨queue.requeue (unwritten taken stop), service, progress.committed,
          .error error, [warning]⟩
    | .refused index =>
      some ⟨queue.requeue taken, { service with pool }, [], .error (.backendNotFound index), []⟩
    | .unreachable _ error =>
      some ⟨queue.requeue taken, { service with pool }, [], .error error, reply.warnings⟩

def drain (queue : Queue) (service : Service) (immediate : Option Batch) : Option Outcome :=
  let (taken, queue) := queue.take
  queue.write service taken immediate

def flush (queue : Queue) (service : Service) : Option Outcome :=
  { queue with flushes := queue.flushes + 1 }.drain service none

/-- Queues a batch or writes it, as its persistency says. -/
def submit (queue : Queue) (service : Service) (batch : Batch) : Option Outcome :=
  if batch.isEmpty then some ⟨queue, service, [], .ok (), []⟩
  else if batch.semantics.persistency.isDeferrable then
    let queue := queue.enqueue batch
    if queue.limit ≤ queue.pending then queue.flush service
    else some ⟨queue, service, [], .ok (), []⟩
  else queue.drain service (some batch)

end Queue
end MetadataClient
