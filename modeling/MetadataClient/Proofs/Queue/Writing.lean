import MetadataClient.Proofs.DocumentStore.Contents
import MetadataClient.Proofs.Queue.Delivery

/-! Queues over a store that began empty. Nothing that is written to such a store fails, so
a queue that gets a connection writes all it has to write, and the store stands for what
its operations make of it. -/
namespace MetadataClient

namespace Contents

/-- The map after some operations. -/
def operate (contents : Contents) (operations : List Operation) : Contents :=
  operations.foldl (fun contents operation => contents.write operation.write) contents

theorem operate_append (contents : Contents) (first second : List Operation) :
    contents.operate (first ++ second) = (contents.operate first).operate second :=
  List.foldl_append

end Contents

def Operation.Shallow (operation : Operation) : Prop :=
  operation.write.Shallow

theorem DocumentStore.apply_operations {store : DocumentStore} {contents : Contents}
    (represents : store.Represents contents) {operations : List Operation}
    (shallow : ∀ operation ∈ operations, operation.Shallow) :
    ∃ after, store.apply (operations.map Operation.write) = .ok after ∧
      after.Represents (contents.operate operations) := by
  obtain ⟨after, applied, next⟩ :=
    DocumentStore.apply_represents represents (List.forall_mem_map.mpr shallow)
  refine ⟨after, applied, ?_⟩
  rwa [List.foldl_map] at next

namespace Batch

theorem executeEach_represents {store : DocumentStore} {contents : Contents}
    (represents : store.Represents contents) (applied : Nat) {operations : List Operation}
    (shallow : ∀ operation ∈ operations, operation.Shallow) :
    (executeEach store applied operations).failure = none ∧
      (executeEach store applied operations).store.Represents (contents.operate operations) := by
  induction operations generalizing store contents applied with
  | nil => exact ⟨rfl, represents⟩
  | cons operation rest ih =>
    obtain ⟨after, performed, next⟩ :=
      DocumentStore.apply_operations represents
        (List.forall_mem_singleton.mpr (shallow operation List.mem_cons_self))
    rw [executeEach, ← List.map_singleton, performed]
    exact ih next (applied + 1) fun other member => shallow other (List.mem_cons_of_mem _ member)

/-- A batch is carried out as a whole, one by one or in one transaction. -/
theorem execute_represents {store : DocumentStore} {contents : Contents}
    (represents : store.Represents contents) {batch : Batch}
    (shallow : ∀ operation ∈ batch.operations, operation.Shallow) :
    (batch.execute store).failure = none ∧
      (batch.execute store).store.Represents (contents.operate batch.operations) := by
  rw [execute]
  cases batch.semantics.atomicity with
  | batch =>
    obtain ⟨after, applied, next⟩ := DocumentStore.apply_operations represents shallow
    rw [applied]
    exact ⟨rfl, next⟩
  | operation => exact executeEach_represents represents 0 shallow
  | none => exact executeEach_represents represents 0 shallow

end Batch

namespace Queue

theorem execute_represents {store : DocumentStore} {contents : Contents}
    (represents : store.Represents contents) (position : Nat) {batches : List Batch}
    (shallow : ∀ operation ∈ batches.flatMap Batch.operations, operation.Shallow) :
    (execute store position batches).stop = none ∧
      (execute store position batches).store.Represents
        (contents.operate (batches.flatMap Batch.operations)) := by
  induction batches generalizing store contents position with
  | nil => exact ⟨rfl, represents⟩
  | cons batch rest ih =>
    rw [List.flatMap_cons] at shallow ⊢
    obtain ⟨complete, next⟩ := batch.execute_represents represents fun operation member =>
      shallow operation (List.mem_append_left _ member)
    rw [execute, Contents.operate_append]
    rcases executed : batch.execute store with ⟨after, committed, applied, failure⟩
    simp only [executed] at complete next
    subst complete
    exact ih next (position + 1) fun operation member =>
      shallow operation (List.mem_append_right _ member)

/-- What is known of a service: its store stands for a map, and some of its connections are
lent. -/
structure Serves (service : Service) (contents : Contents) (limit lent : Nat) : Prop where
  represents : service.store.Represents contents
  accounts : service.pool.Accounts lent
  limited : service.pool.limit = limit

theorem write_serves (queue : Queue) {service : Service} {contents : Contents} {limit lent : Nat}
    (serves : Serves service contents limit lent) (room : lent < limit) (taken : List Batch)
    (immediate : Option Batch)
    (shallow : ∀ operation ∈ (taken ++ immediate.toList).flatMap Batch.operations,
      operation.Shallow) :
    ∃ outcome, queue.write service taken immediate = some outcome ∧ outcome.answer = .ok () ∧
      outcome.queue = queue ∧ Serves outcome.service
        (contents.operate ((taken ++ immediate.toList).flatMap Batch.operations)) limit lent := by
  obtain ⟨represents, accounts, limited⟩ := serves
  rw [write]
  split
  next none =>
    rw [List.isEmpty_iff.mp none]
    exact ⟨_, rfl, rfl, rfl, represents, accounts, limited⟩
  next some =>
    obtain ⟨loan, pool, acquired, lender, after, limited'⟩ :=
      Pool.acquire_granted accounts (limited ▸ room)
    obtain ⟨complete, next⟩ := execute_represents represents 0 shallow
    simp only [acquired, complete]
    exact ⟨_, rfl, rfl, rfl, next, Pool.release_accounts after lender, limited'.trans limited⟩

/-- Once the operations that wait are written, the store is going to stand for the map. -/
def Promises (queue : Queue) (service : Service) (contents : Contents) (limit lent : Nat) :
    Prop :=
  ∃ written, Serves service written limit lent ∧ written.operate queue.operations = contents ∧
    ∀ operation ∈ queue.operations, operation.Shallow

variable {queue : Queue} {service : Service} {contents : Contents} {limit lent : Nat}

theorem drain_serves (promises : queue.Promises service contents limit lent) (room : lent < limit)
    (immediate : Option Batch)
    (shallow : ∀ operation ∈ immediate.toList.flatMap Batch.operations, operation.Shallow) :
    ∃ outcome, queue.drain service immediate = some outcome ∧ outcome.answer = .ok () ∧
      outcome.queue.operations = [] ∧ Serves outcome.service
        (contents.operate (immediate.toList.flatMap Batch.operations)) limit lent := by
  obtain ⟨written, serves, rfl, waiting⟩ := promises
  have all : (queue.batches ++ immediate.toList).flatMap Batch.operations =
      queue.operations ++ immediate.toList.flatMap Batch.operations := List.flatMap_append
  have every : ∀ operation ∈ (queue.batches ++ immediate.toList).flatMap Batch.operations,
      operation.Shallow := by
    rw [all]
    exact List.forall_mem_append.mpr ⟨waiting, shallow⟩
  obtain ⟨outcome, done, answer, left, after⟩ :=
    write_serves { queue with batches := [], pending := 0 } serves room queue.batches immediate
      every
  rw [all, Contents.operate_append] at after
  exact ⟨outcome, done, answer, left ▸ rfl, after⟩

theorem promises_of_serves (serves : Serves service contents limit lent)
    (none : queue.operations = []) : queue.Promises service contents limit lent :=
  ⟨contents, serves, by rw [none]; rfl, by rw [none]; exact List.forall_mem_nil _⟩

theorem promises_append (promises : queue.Promises service contents limit lent) {later : Queue}
    {operations : List Operation} (waiting : later.operations = queue.operations ++ operations)
    (shallow : ∀ operation ∈ operations, operation.Shallow) :
    later.Promises service (contents.operate operations) limit lent := by
  obtain ⟨written, serves, rfl, earlier⟩ := promises
  refine ⟨written, serves, ?_, ?_⟩
  · rw [waiting, Contents.operate_append]
  · rw [waiting]
    exact List.forall_mem_append.mpr ⟨earlier, shallow⟩

theorem flush_serves (promises : queue.Promises service contents limit lent)
    (room : lent < limit) :
    ∃ outcome, queue.flush service = some outcome ∧ outcome.answer = .ok () ∧
      outcome.queue.operations = [] ∧ Serves outcome.service contents limit lent :=
  @drain_serves { queue with flushes := queue.flushes + 1 } service contents limit lent promises
    room none nofun

/-- Whether a batch waits or is written, the store is going to stand for what it makes of the
map. -/
theorem submit_promises (promises : queue.Promises service contents limit lent)
    (room : lent < limit) {batch : Batch}
    (shallow : ∀ operation ∈ batch.operations, operation.Shallow) :
    ∃ outcome, queue.submit service batch = some outcome ∧ outcome.answer = .ok () ∧
      outcome.queue.Promises outcome.service (contents.operate batch.operations) limit lent := by
  rw [submit]
  split
  next empty =>
    rw [List.isEmpty_iff.mp empty]
    exact ⟨_, rfl, rfl, promises⟩
  next =>
    split
    next =>
      have queued : (queue.enqueue batch).Promises service (contents.operate batch.operations)
          limit lent := promises_append promises (operations_enqueue queue batch) shallow
      dsimp only
      split
      · obtain ⟨outcome, flushed, answer, none, serves⟩ := flush_serves queued room
        exact ⟨outcome, flushed, answer, promises_of_serves serves none⟩
      · exact ⟨_, rfl, rfl, queued⟩
    next =>
      have alone : (some batch).toList.flatMap Batch.operations = batch.operations := by simp
      obtain ⟨outcome, drained, answer, none, serves⟩ :=
        drain_serves promises room (some batch) (alone ▸ shallow)
      rw [alone] at serves
      exact ⟨outcome, drained, answer, promises_of_serves serves none⟩

/-! ## Without a connection -/

variable {outcome : Outcome}

/-- A call that returns although there is no connection had nothing to write. -/
theorem write_waiting (full : (service.pool.acquire metadataIndex).1 = .waiting)
    {taken : List Batch} {immediate : Option Batch}
    (written : queue.write service taken immediate = some outcome) :
    taken ++ immediate.toList = [] ∧ outcome = ⟨queue, service, [], .ok (), []⟩ := by
  rw [write] at written
  split at written
  next none => exact ⟨List.isEmpty_iff.mp none, (Option.some.inj written).symm⟩
  next some =>
    generalize service.pool.acquire metadataIndex = request at full written
    obtain ⟨reply, pool⟩ := request
    cases full
    cases written

theorem flush_waiting (full : (service.pool.acquire metadataIndex).1 = .waiting)
    (flushed : queue.flush service = some outcome) :
    outcome.answer = .ok () ∧ outcome.service = service ∧
      outcome.queue.operations = queue.operations := by
  obtain ⟨nothing, rfl⟩ := write_waiting full flushed
  have none : queue.batches = [] := (List.append_eq_nil_iff.mp nothing).1
  refine ⟨rfl, rfl, ?_⟩
  rw [operations, operations, none]

theorem submit_waiting (full : (service.pool.acquire metadataIndex).1 = .waiting) {batch : Batch}
    (submitted : queue.submit service batch = some outcome) :
    outcome.answer = .ok () ∧ outcome.service = service ∧
      outcome.queue.operations = queue.operations ++ batch.operations := by
  rw [submit] at submitted
  split at submitted
  next empty =>
    cases submitted
    rw [List.isEmpty_iff.mp empty, List.append_nil]
    exact ⟨rfl, rfl, rfl⟩
  next =>
    split at submitted
    next =>
      dsimp only at submitted
      split at submitted
      next =>
        obtain ⟨answer, same, operations⟩ := flush_waiting full submitted
        exact ⟨answer, same, operations.trans (operations_enqueue ..)⟩
      next =>
        cases submitted
        exact ⟨rfl, rfl, operations_enqueue ..⟩
    next =>
      obtain ⟨nothing, -⟩ := write_waiting full submitted
      cases (List.append_eq_nil_iff.mp nothing).2

end Queue
end MetadataClient
