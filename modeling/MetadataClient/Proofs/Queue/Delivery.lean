import MetadataClient.Proofs.Pool.Capacity
import MetadataClient.Queue

/-! Delivery of submitted operations. What the transactions of a queue have committed so
far, followed by what still waits, is what was accepted for delivery, in the order of
submission. This holds after any calls, also after calls that failed. -/
namespace MetadataClient

/-- Carries the transactions out one after the other. -/
def DocumentStore.replay (store : DocumentStore) (transactions : List (List Operation)) :
    Except StoreError DocumentStore :=
  transactions.foldlM (fun store operations => store.apply (operations.map Operation.write)) store

theorem DocumentStore.replay_append (store : DocumentStore) (first second : List (List Operation)) :
    store.replay (first ++ second) = store.replay first >>= fun after => after.replay second := by
  simp only [replay, List.foldlM_append]

namespace Batch

theorem executeEach_delivers (store : DocumentStore) (applied : Nat) (operations : List Operation) :
    ∃ done, (executeEach store applied operations).applied = applied + done ∧
      (executeEach store applied operations).committed = (operations.take done).map ([·]) ∧
      ((executeEach store applied operations).failure = none → done = operations.length) ∧
      store.replay (executeEach store applied operations).committed =
        .ok (executeEach store applied operations).store := by
  induction operations generalizing store applied with
  | nil => exact ⟨0, rfl, rfl, fun _ => rfl, rfl⟩
  | cons operation rest ih =>
    rw [executeEach]
    cases first : store.apply [operation.write] with
    | error error => exact ⟨0, rfl, rfl, nofun, rfl⟩
    | ok after =>
      obtain ⟨done, counted, committed, complete, replayed⟩ := ih after (applied + 1)
      refine ⟨done + 1, ?_, ?_, ?_, ?_⟩
      · simp only [counted]
        omega
      · simp only [committed, List.take_succ_cons, List.map_cons]
      · intro succeeded
        simp only [complete succeeded, List.length_cons]
      · simp only [DocumentStore.replay, List.foldlM_cons, List.map_cons, List.map_nil, first]
        exact replayed

/-- The transactions of an execution lead to its store. They hold the first operations, as
many as it counts as applied, and all of them unless it failed. -/
structure Delivers (operations : List Operation) (store : DocumentStore)
    (execution : Execution) : Prop where
  written : execution.committed.flatten = operations.take execution.applied
  complete : execution.failure = none → execution.applied = operations.length
  replayed : store.replay execution.committed = .ok execution.store

theorem execute_delivers (batch : Batch) (store : DocumentStore) :
    Delivers batch.operations store (batch.execute store) := by
  have each : Delivers batch.operations store (executeEach store 0 batch.operations) := by
    obtain ⟨done, counted, committed, complete, replayed⟩ :=
      executeEach_delivers store 0 batch.operations
    rw [Nat.zero_add] at counted
    constructor
    · rw [committed, counted, ← List.flatMap_def, List.flatMap_singleton']
    · intro succeeded
      exact counted.trans (complete succeeded)
    · exact replayed
  rw [execute]
  cases batch.semantics.atomicity with
  | batch =>
    cases whole : store.apply (batch.operations.map Operation.write) with
    | error error => exact ⟨rfl, nofun, rfl⟩
    | ok after =>
      constructor
      · simp only [List.flatten_singleton, size, List.take_length]
      · intro succeeded
        rfl
      · simp only [DocumentStore.replay, List.foldlM_cons, whole]
        rfl
  | operation => exact each
  | none => exact each

end Batch

namespace Queue

/-- The operations that wait, in order. -/
def operations (queue : Queue) : List Operation :=
  queue.batches.flatMap Batch.operations

theorem operations_enqueue (queue : Queue) (batch : Batch) :
    (queue.enqueue batch).operations = queue.operations ++ batch.operations := by
  simp [operations, enqueue]

theorem operations_requeue (queue : Queue) (batches : List Batch) :
    (queue.requeue batches).operations = batches.flatMap Batch.operations ++ queue.operations := by
  simp [operations, requeue]

/-- Execution stops inside the first batch that fails; all before it are committed. -/
theorem execute_delivers (store : DocumentStore) (position : Nat) (batches : List Batch) :
    store.replay (execute store position batches).committed =
        .ok (execute store position batches).store ∧
      match (execute store position batches).stop with
      | none => (execute store position batches).committed.flatten =
          batches.flatMap Batch.operations
      | some stop => ∃ before batch after, batches = before ++ batch :: after ∧
          stop.batch = position + before.length ∧
          (execute store position batches).committed.flatten =
            before.flatMap Batch.operations ++ batch.operations.take stop.applied := by
  induction batches generalizing store position with
  | nil => exact ⟨rfl, rfl⟩
  | cons batch rest ih =>
    obtain ⟨written, complete, replayed⟩ := batch.execute_delivers store
    rw [execute]
    rcases executed : batch.execute store with ⟨after, committed, applied, failure⟩
    simp only [executed] at written complete replayed
    cases failure with
    | some error =>
      exact ⟨replayed, [], batch, rest, rfl, rfl, written⟩
    | none =>
      obtain ⟨later, stopped⟩ := ih after (position + 1)
      have whole : committed.flatten = batch.operations := by
        rw [written, complete rfl, List.take_length]
      constructor
      · simp only [DocumentStore.replay_append, replayed]
        exact later
      · simp only
        split at stopped
        next free =>
          simp only [List.flatten_append, whole, stopped, List.flatMap_cons]
        next stop found =>
          obtain ⟨before, failed, behind, rfl, place, reached⟩ := stopped
          refine ⟨batch :: before, failed, behind, rfl, ?_, ?_⟩
          · rw [place, List.length_cons]
            omega
          · simp only [List.flatten_append, whole, reached, List.flatMap_cons, List.append_assoc]

/-- The batches that are put back hold exactly the operations that were not written. -/
theorem operations_unwritten (before after : List Batch) (batch : Batch) (stop : Stop)
    (place : stop.batch = before.length) :
    before.flatMap Batch.operations ++ batch.operations.take stop.applied ++
        (unwritten (before ++ batch :: after) stop).flatMap Batch.operations =
      (before ++ batch :: after).flatMap Batch.operations := by
  have cut : batch.operations.take stop.applied ++ (batch.skip stop.applied).operations =
      batch.operations := List.take_append_drop ..
  simp only [unwritten, place, List.drop_left, List.flatMap_append, List.flatMap_cons]
  rw [List.append_assoc, ← List.append_assoc (batch.operations.take _), cut]

/-- A stop behind all the taken batches leaves none of them to be put back. -/
theorem unwritten_eq_nil {taken : List Batch} {stop : Stop} (behind : taken.length ≤ stop.batch) :
    unwritten taken stop = [] := by
  rw [unwritten, List.drop_eq_nil_of_le behind]

/-- Where an execution stops, either the taken operations are all written or put back, or they
are all written and the batch that failed is the immediate one. -/
theorem unwritten_delivers {taken before after : List Batch} {immediate : Option Batch}
    {batch : Batch} {stop : Stop}
    (stopped : taken ++ immediate.toList = before ++ batch :: after)
    (place : stop.batch = before.length) :
    before.flatMap Batch.operations ++ batch.operations.take stop.applied ++
        (unwritten taken stop).flatMap Batch.operations = taken.flatMap Batch.operations ∨
      immediate = some batch ∧ before = taken ∧ unwritten taken stop = [] := by
  have deferred (rest : List Batch) (same : taken = before ++ batch :: rest) :
      before.flatMap Batch.operations ++ batch.operations.take stop.applied ++
        (unwritten taken stop).flatMap Batch.operations = taken.flatMap Batch.operations := by
    rw [same]
    exact operations_unwritten before rest batch stop place
  cases immediate with
  | none =>
    left
    apply deferred after
    simpa using stopped
  | some last =>
    rcases List.eq_nil_or_concat after with rfl | ⟨rest, final, rfl⟩
    · -- The batch that failed is the last one, which was not taken from the queue.
      right
      obtain ⟨rfl, same⟩ := List.append_inj' stopped rfl
      obtain rfl : last = batch := by simpa using same
      exact ⟨rfl, rfl, unwritten_eq_nil (Nat.le_of_eq place.symm)⟩
    · left
      have same : taken ++ [last] = before ++ batch :: rest ++ [final] := by
        simpa using stopped
      exact deferred rest (List.append_inj' same rfl).1

/-- What a call that writes has committed, against the batches that it took and the one that
it was given. If it fails, either the taken operations are all in the store or in the
queue and the immediate batch was not reached, or all the taken operations are in the
store and of the immediate batch those before the failure. -/
theorem write_delivers {queue : Queue} {service : Service} {taken : List Batch}
    {immediate : Option Batch} {outcome : Outcome}
    (written : queue.write service taken immediate = some outcome) :
    service.store.replay outcome.committed = .ok outcome.service.store ∧
      match outcome.answer with
      | .ok _ => outcome.queue = queue ∧ outcome.committed.flatten =
          (taken ++ immediate.toList).flatMap Batch.operations
      | .error _ => outcome.committed.flatten ++ outcome.queue.operations =
            taken.flatMap Batch.operations ++ queue.operations ∨
          ∃ batch count, immediate = some batch ∧ outcome.queue.operations = queue.operations ∧
            outcome.committed.flatten =
              taken.flatMap Batch.operations ++ batch.operations.take count := by
  rw [write] at written
  split at written
  next none =>
    cases written
    exact ⟨rfl, rfl, by rw [List.isEmpty_iff.mp none]; rfl⟩
  next some =>
    rcases acquired : service.pool.acquire metadataIndex with ⟨reply, pool⟩
    rw [acquired] at written
    cases reply with
    | waiting => cases written
    | refused index =>
      cases written
      exact ⟨rfl, .inl (operations_requeue ..)⟩
    | unreachable index error =>
      cases written
      exact ⟨rfl, .inl (operations_requeue ..)⟩
    | granted loan =>
      obtain ⟨replayed, reached⟩ := execute_delivers service.store 0 (taken ++ immediate.toList)
      simp only at written
      split at written
      next free =>
        cases written
        simp only [free] at reached
        exact ⟨replayed, rfl, reached⟩
      next stop stopped =>
        cases written
        simp only [stopped] at reached
        obtain ⟨before, batch, after, split, place, committed⟩ := reached
        rw [Nat.zero_add] at place
        refine ⟨replayed, ?_⟩
        simp only [operations_requeue, committed]
        -- What failed is one of the taken batches, and the rest comes back, or the immediate one.
        rcases unwritten_delivers split place with balanced | ⟨given, rfl, left⟩
        · left
          rw [← List.append_assoc, balanced]
        · right
          refine ⟨batch, stop.applied, given, ?_, rfl⟩
          rw [left]
          rfl

/-- With a connection to be had, a call that writes comes back, and gives its connection
back. -/
theorem write_returns (queue : Queue) {service : Service} {lent : Nat}
    (accounts : service.pool.Accounts lent) (room : lent < service.pool.limit)
    (taken : List Batch) (immediate : Option Batch) :
    ∃ outcome, queue.write service taken immediate = some outcome ∧
      outcome.service.pool.Accounts lent ∧ outcome.service.pool.limit = service.pool.limit := by
  obtain ⟨loan, pool, acquired, lender, after, limit⟩ := Pool.acquire_granted accounts room
  have returned := Pool.release_accounts after lender
  rw [write]
  split
  · exact ⟨_, rfl, accounts, rfl⟩
  · simp only [acquired]
    split
    · exact ⟨_, rfl, returned, limit⟩
    · exact ⟨_, rfl, returned, limit⟩

inductive Call
  | submit (batch : Batch)
  | flush

def call (queue : Queue) (service : Service) : Call → Option Outcome
  | .submit batch => queue.submit service batch
  | .flush => queue.flush service

theorem call_returns (queue : Queue) {service : Service} {lent : Nat}
    (accounts : service.pool.Accounts lent) (room : lent < service.pool.limit) (call : Call) :
    ∃ outcome, queue.call service call = some outcome ∧
      outcome.service.pool.Accounts lent ∧ outcome.service.pool.limit = service.pool.limit := by
  cases call with
  | flush => exact write_returns _ accounts room _ _
  | submit batch =>
    rw [Queue.call, submit]
    split
    · exact ⟨_, rfl, accounts, rfl⟩
    · split
      · dsimp only
        split
        · exact write_returns _ accounts room _ _
        · exact ⟨_, rfl, accounts, rfl⟩
      · exact write_returns _ accounts room _ _

/-- What is known of a call when it is over: what waited in the queue before it, what it has
committed, and what waits after it. -/
structure Entry where
  call : Call
  answer : Except Error Unit
  waiting : List Operation
  committed : List (List Operation)
  left : List Operation

namespace Entry

def written (entry : Entry) : List Operation :=
  entry.committed.flatten

/-- The operations for whose delivery the queue answers: those of a batch that may wait,
whatever the answer, those of an immediate batch that was written, and of one that failed
those that were written behind all that waited. -/
def accepted (entry : Entry) : List Operation :=
  match entry.call with
  | .flush => []
  | .submit batch =>
    if batch.semantics.persistency.isDeferrable then batch.operations
    else match entry.answer with
      | .ok _ => batch.operations
      | .error _ => entry.written.drop entry.waiting.length

theorem accepted_of_deferrable {entry : Entry} {batch : Batch} (call : entry.call = .submit batch)
    (waits : batch.semantics.persistency.isDeferrable = true) :
    entry.accepted = batch.operations := by
  simp only [accepted, call, waits, if_true]

theorem accepted_of_ok {entry : Entry} {batch : Batch} (call : entry.call = .submit batch)
    (succeeded : entry.answer = .ok ()) : entry.accepted = batch.operations := by
  simp only [accepted, call, succeeded, ite_self]

theorem accepted_of_error {entry : Entry} {batch : Batch} {error : Error}
    (call : entry.call = .submit batch)
    (immediate : batch.semantics.persistency.isDeferrable = false)
    (failed : entry.answer = .error error) :
    entry.accepted = entry.written.drop entry.waiting.length := by
  simp only [accepted, call, immediate, failed, Bool.false_eq_true, if_false]

/-- The call is one that has to empty the queue. -/
def Writes (entry : Entry) : Prop :=
  match entry.call with
  | .flush => True
  | .submit batch => batch.isEmpty = false ∧ batch.semantics.persistency.isDeferrable = false

/-- What waited and what is accepted is written or left, in this order. -/
structure Delivers (entry : Entry) : Prop where
  balanced : entry.written ++ entry.left = entry.waiting ++ entry.accepted
  part : ∀ batch, entry.call = .submit batch → entry.accepted <+: batch.operations
  behind : ∀ batch, entry.call = .submit batch → batch.semantics.persistency.isDeferrable = false →
    entry.accepted = [] ∨ entry.written = entry.waiting ++ entry.accepted
  emptied : entry.Writes → entry.answer = .ok () → entry.left = []

end Entry

theorem drain_delivers {queue : Queue} {service : Service} {immediate : Option Batch}
    {outcome : Outcome} (drained : queue.drain service immediate = some outcome) :
    service.store.replay outcome.committed = .ok outcome.service.store ∧
      match outcome.answer with
      | .ok _ => outcome.queue.operations = [] ∧ outcome.committed.flatten =
          queue.operations ++ immediate.toList.flatMap Batch.operations
      | .error _ => outcome.committed.flatten ++ outcome.queue.operations = queue.operations ∨
          ∃ batch count, immediate = some batch ∧ outcome.queue.operations = [] ∧
            outcome.committed.flatten = queue.operations ++ batch.operations.take count := by
  have none : operations { queue with batches := [], pending := 0 } = [] := rfl
  have all : queue.batches.flatMap Batch.operations = queue.operations := rfl
  obtain ⟨replayed, reached⟩ := write_delivers drained
  refine ⟨replayed, ?_⟩
  split at reached
  · obtain ⟨rest, committed⟩ := reached
    exact ⟨rest ▸ none, by rw [committed, List.flatMap_append, all]⟩
  · rw [none, all, List.append_nil] at reached
    exact reached

/-- A flush writes what waits from the front, and all of it if it succeeds. -/
theorem flush_delivers {queue : Queue} {service : Service} {outcome : Outcome}
    (flushed : queue.flush service = some outcome) :
    service.store.replay outcome.committed = .ok outcome.service.store ∧
      outcome.committed.flatten ++ outcome.queue.operations = queue.operations ∧
      (outcome.answer = .ok () → outcome.queue.operations = []) := by
  have same : operations { queue with flushes := queue.flushes + 1 } = queue.operations := rfl
  obtain ⟨replayed, reached⟩ := drain_delivers flushed
  rw [same] at reached
  cases answered : outcome.answer with
  | ok =>
    simp only [answered] at reached
    obtain ⟨left, written⟩ := reached
    refine ⟨replayed, ?_, ?_⟩
    · rw [written, left]
      simp
    · intro succeeded
      exact left
  | error error =>
    simp only [answered] at reached
    refine ⟨replayed, ?_, ?_⟩
    · rcases reached with balanced | ⟨batch, count, given, -⟩
      · exact balanced
      · cases given
    · intro succeeded
      cases succeeded

namespace Entry

/-- Nothing new is accepted; what waited is written or left. -/
theorem delivers_of_none {entry : Entry} (none : entry.accepted = [])
    (kept : entry.written ++ entry.left = entry.waiting)
    (emptied : entry.Writes → entry.answer = .ok () → entry.left = []) : entry.Delivers := by
  constructor
  · rw [none, kept, List.append_nil]
  · intro other same
    rw [none]
    exact List.nil_prefix
  · intro other same immediate
    left
    exact none
  · exact emptied

theorem delivers_of_deferrable {entry : Entry} {batch : Batch} (call : entry.call = .submit batch)
    (waits : batch.semantics.persistency.isDeferrable = true)
    (balanced : entry.written ++ entry.left = entry.waiting ++ batch.operations) :
    entry.Delivers := by
  have accepted := accepted_of_deferrable call waits
  constructor
  · rw [accepted, balanced]
  · intro other same
    cases call.symm.trans same
    exact accepted ▸ List.prefix_rfl
  · intro other same immediate
    cases call.symm.trans same
    cases waits.symm.trans immediate
  · intro writes
    simp only [Writes, call, waits] at writes
    cases writes.2

theorem delivers_of_empty {entry : Entry} {batch : Batch} (call : entry.call = .submit batch)
    (empty : batch.isEmpty = true) (succeeded : entry.answer = .ok ())
    (kept : entry.written ++ entry.left = entry.waiting) : entry.Delivers := by
  have none : entry.accepted = [] :=
    (accepted_of_ok call succeeded).trans (List.isEmpty_iff.mp empty)
  apply delivers_of_none none kept
  intro writes
  simp only [Writes, call, empty] at writes
  cases writes.1

/-- An immediate batch is written as a whole behind all that waited, or in part behind all
that waited, or not at all. -/
theorem delivers_of_immediate {entry : Entry} {batch : Batch} (call : entry.call = .submit batch)
    (immediate : batch.semantics.persistency.isDeferrable = false)
    (reached : match entry.answer with
      | .ok _ => entry.left = [] ∧ entry.written = entry.waiting ++ batch.operations
      | .error _ => entry.written ++ entry.left = entry.waiting ∨
          ∃ count, entry.left = [] ∧
            entry.written = entry.waiting ++ batch.operations.take count) :
    entry.Delivers := by
  cases answered : entry.answer with
  | ok =>
    simp only [answered] at reached
    obtain ⟨left, written⟩ := reached
    have accepted := accepted_of_ok call answered
    constructor
    · rw [accepted, written, left, List.append_nil]
    · intro other same
      cases call.symm.trans same
      exact accepted ▸ List.prefix_rfl
    · intro other same immediate
      right
      rw [accepted, written]
    · intro writes succeeded
      exact left
  | error error =>
    simp only [answered] at reached
    have accepted := accepted_of_error call immediate answered
    rcases reached with balanced | ⟨count, left, written⟩
    · -- All that was written had waited before, so nothing of this batch is accepted.
      have none : entry.accepted = [] := by
        rw [accepted, ← balanced]
        apply List.drop_eq_nil_of_le
        rw [List.length_append]
        exact Nat.le_add_right ..
      apply delivers_of_none none balanced
      intro writes succeeded
      cases answered.symm.trans succeeded
    · have some : entry.accepted = batch.operations.take count := by
        rw [accepted, written, List.drop_left]
      constructor
      · rw [some, written, left, List.append_nil]
      · intro other same
        cases call.symm.trans same
        rw [some]
        exact List.take_prefix ..
      · intro other same immediate
        right
        rw [some, written]
      · intro writes succeeded
        exact left

end Entry

theorem call_delivers {queue : Queue} {service : Service} {call : Call} {outcome : Outcome}
    (called : queue.call service call = some outcome) :
    service.store.replay outcome.committed = .ok outcome.service.store ∧
      Entry.Delivers ⟨call, outcome.answer, queue.operations, outcome.committed,
        outcome.queue.operations⟩ := by
  cases call with
  | flush =>
    obtain ⟨replayed, balanced, emptied⟩ := flush_delivers called
    refine ⟨replayed, Entry.delivers_of_none rfl balanced ?_⟩
    intro writes
    exact emptied
  | submit batch =>
    rw [Queue.call, submit] at called
    split at called
    next empty =>
      cases called
      exact ⟨rfl, Entry.delivers_of_empty rfl empty rfl rfl⟩
    next filled =>
      split at called
      next waits =>
        dsimp only at called
        split at called
        · obtain ⟨replayed, balanced, -⟩ := flush_delivers called
          rw [operations_enqueue] at balanced
          exact ⟨replayed, Entry.delivers_of_deferrable rfl waits balanced⟩
        · cases called
          exact ⟨rfl, Entry.delivers_of_deferrable rfl waits (operations_enqueue queue batch)⟩
      next immediate =>
        obtain ⟨replayed, reached⟩ := drain_delivers called
        refine ⟨replayed, Entry.delivers_of_immediate rfl (Bool.eq_false_iff.mpr immediate) ?_⟩
        cases answered : outcome.answer with
        | ok =>
          have alone : (some batch).toList.flatMap Batch.operations = batch.operations := by simp
          simp only [answered, alone] at reached ⊢
          exact reached
        | error error =>
          simp only [answered] at reached ⊢
          rcases reached with balanced | ⟨last, count, given, left, written⟩
          · exact .inl balanced
          · cases given
            exact .inr ⟨count, left, written⟩

/-- The uses of a queue one after the other, unless one has to wait for a connection. -/
def run (queue : Queue) (service : Service) : List Call → Option (List Entry × Queue × Service)
  | [] => some ([], queue, service)
  | call :: rest => do
    let outcome ← queue.call service call
    let (entries, last) ← run outcome.queue outcome.service rest
    return (⟨call, outcome.answer, queue.operations, outcome.committed,
      outcome.queue.operations⟩ :: entries, last)

theorem run_delivers (queue : Queue) {service : Service} {lent : Nat}
    (accounts : service.pool.Accounts lent) (room : lent < service.pool.limit)
    (calls : List Call) :
    ∃ entries last after, queue.run service calls = some (entries, last, after) ∧
      entries.map Entry.call = calls ∧
      service.store.replay (entries.flatMap Entry.committed) = .ok after.store ∧
      entries.flatMap Entry.written ++ last.operations =
        queue.operations ++ entries.flatMap Entry.accepted ∧
      ∀ entry ∈ entries, entry.Delivers := by
  induction calls generalizing queue service with
  | nil => exact ⟨[], queue, service, rfl, rfl, rfl, (List.append_nil _).symm,
      List.forall_mem_nil _⟩
  | cons call rest ih =>
    obtain ⟨outcome, called, after, limit⟩ := queue.call_returns accounts room call
    obtain ⟨replayed, delivers⟩ := call_delivers called
    rw [← limit] at room
    obtain ⟨entries, last, final, ran, calls, later, balanced, all⟩ :=
      ih outcome.queue after room
    refine ⟨⟨call, outcome.answer, queue.operations, outcome.committed,
      outcome.queue.operations⟩ :: entries, last, final, ?_, ?_, ?_, ?_, ?_⟩
    · simp only [run, called, ran, Option.bind_eq_bind, Option.bind_some, Option.pure_def]
    · simp only [List.map_cons, calls]
    · simp only [List.flatMap_cons, DocumentStore.replay_append, replayed]
      exact later
    · simp only [List.flatMap_cons, List.append_assoc]
      rw [balanced, ← List.append_assoc, ← List.append_assoc]
      exact congrArg (· ++ _) delivers.balanced
    · intro entry member
      rcases List.mem_cons.mp member with rfl | later
      · exact delivers
      · exact all entry later

/-- Exactly-once delivery in order. A new queue, whatever its limit, its store and the servers
behind it, answers every sequence of calls. Its transactions lead to the store that is there
afterwards, and their operations, with those that still wait behind them, are the ones
accepted for delivery. -/
theorem run_delivers_in_order (limit capacity : Nat) (servers : List String)
    (store : DocumentStore) (calls : List Call) :
    ∃ entries last after,
      (new limit).run ⟨.new (Servers.new servers) capacity, store⟩ calls =
        some (entries, last, after) ∧
      entries.map Entry.call = calls ∧
      store.replay (entries.flatMap Entry.committed) = .ok after.store ∧
      entries.flatMap Entry.written ++ last.operations = entries.flatMap Entry.accepted ∧
      ∀ entry ∈ entries, entry.Delivers := by
  let service : Service := ⟨.new (Servers.new servers) capacity, store⟩
  have accounts : service.pool.Accounts 0 := Pool.new_accounts servers capacity
  have room : 0 < service.pool.limit := by
    change 0 < max capacity 1
    omega
  exact run_delivers (new limit) accounts room calls

end Queue
end MetadataClient
