import MetadataClient.Proofs.Queue.Atomicity

/-! Deferral. How operations are grouped into batches, which batches wait and when those that wait
are written makes no difference in the end: the store becomes what the operations make of it
in the order of their submission. -/
namespace MetadataClient

def Execution.result (execution : Execution) : Except StoreError DocumentStore :=
  match execution.failure with
  | none => .ok execution.store
  | some error => .error error

def Progress.result (progress : Progress) : Except StoreError DocumentStore :=
  match progress.stop with
  | none => .ok progress.store
  | some stop => .error stop.error

/-- Whether it is carried out as a whole or one by one, a batch comes to what its operations come
to in one transaction. Only what is left behind a failure depends on its atomicity. -/
theorem Batch.execute_result (batch : Batch) (store : DocumentStore) :
    (batch.execute store).result = store.apply (batch.operations.map Operation.write) := by
  rw [DocumentStore.apply_eq_foldlM]
  have executed := batch.execute_executes store
  generalize batch.execute store = execution at executed
  cases executed with
  | whole atomic performed => exact performed.symm
  | undone atomic failed => exact failed.symm
  | each single performed => exact performed.symm
  | @stopped after done rest operation error single split performed failed =>
    have fails : (batch.operations.map Operation.write).foldlM DocumentStore.perform store =
        .error error := by
      rw [DocumentStore.foldlM_perform_error_iff]
      refine ⟨done.map Operation.write, operation.write, rest.map Operation.write, after, ?_,
        performed, failed⟩
      rw [split, List.map_append, List.map_cons]
    exact fails.symm

namespace Queue

theorem execute_result (store : DocumentStore) (position : Nat) (batches : List Batch) :
    (execute store position batches).result =
      store.apply ((batches.flatMap Batch.operations).map Operation.write) := by
  induction batches generalizing store position with
  | nil => rfl
  | cons batch rest ih =>
    have first := batch.execute_result store
    rw [List.flatMap_cons, List.map_append, DocumentStore.apply_append, ← first, execute]
    rcases batch.execute store with ⟨after, committed, applied, failure⟩
    cases failure with
    | some error => rfl
    | none => exact ih after (position + 1)

/-- What a call answers that writes, and the store it leaves if it succeeds, for what the
operations come to in one transaction. -/
def Outcome.Reports (outcome : Outcome) : Except StoreError DocumentStore → Prop
  | .ok store => outcome.answer = .ok () ∧ outcome.service.store = store
  | .error error => outcome.answer = .error error.toError

theorem write_reports (queue : Queue) {service : Service} {lent : Nat}
    (accounts : service.pool.Accounts lent) (room : lent < service.pool.limit)
    (taken : List Batch) (immediate : Option Batch) :
    ∃ outcome, queue.write service taken immediate = some outcome ∧
      outcome.Reports (service.store.apply
        (((taken ++ immediate.toList).flatMap Batch.operations).map Operation.write)) := by
  obtain ⟨loan, pool, acquired, -⟩ := Pool.acquire_granted accounts room
  rw [write]
  split
  next none =>
    rw [List.isEmpty_iff.mp none]
    exact ⟨_, rfl, rfl, rfl⟩
  next some =>
    simp only [acquired, ← execute_result service.store 0, Progress.result]
    cases (execute service.store 0 (taken ++ immediate.toList)).stop with
    | none => exact ⟨_, rfl, rfl, rfl⟩
    | some stop => exact ⟨_, rfl, rfl⟩

theorem flush_reports (queue : Queue) {service : Service} {lent : Nat}
    (accounts : service.pool.Accounts lent) (room : lent < service.pool.limit) :
    ∃ outcome, queue.flush service = some outcome ∧
      outcome.Reports (service.store.apply (queue.operations.map Operation.write)) := by
  obtain ⟨outcome, written, reports⟩ := write_reports
    { queue with batches := [], pending := 0, flushes := queue.flushes + 1 } accounts room
    queue.batches none
  rw [Option.toList_none, List.append_nil] at reports
  exact ⟨outcome, written, reports⟩

def Call.operations (call : Call) : List Operation :=
  call.batches.flatMap Batch.operations

/-- A call that succeeds is accepted with all that it submits. -/
theorem Entry.accepted_eq {entry : Entry} (succeeded : entry.answer = .ok ()) :
    entry.accepted = entry.call.operations := by
  cases call : entry.call with
  | flush => rw [accepted, call]; rfl
  | submit batch =>
    rw [accepted_of_ok call succeeded, Call.operations, Call.batches, List.flatMap_singleton]

theorem run_accounts {queue : Queue} {service : Service} {lent : Nat}
    (accounts : service.pool.Accounts lent) (room : lent < service.pool.limit)
    {calls : List Call} {entries : List Entry} {last : Queue} {after : Service}
    (ran : queue.run service calls = some (entries, last, after)) :
    after.pool.Accounts lent ∧ lent < after.pool.limit := by
  induction calls generalizing queue service entries with
  | nil =>
    cases ran
    exact ⟨accounts, room⟩
  | cons call rest ih =>
    obtain ⟨outcome, called, between, limit⟩ := queue.call_returns accounts room call
    simp only [run, called, Option.bind_eq_bind, Option.bind_some, Option.bind_eq_some_iff,
      Option.pure_def] at ran
    obtain ⟨⟨others, last, final⟩, later, same⟩ := ran
    cases same
    exact ih between (limit ▸ room) later

/-- The uses of a queue and a flush behind them. -/
def runAndFlush (queue : Queue) (service : Service) (calls : List Call) :
    Option (List Entry × Outcome) := do
  let (entries, last, after) ← queue.run service calls
  let outcome ← last.flush after
  return (entries, outcome)

/-- If no call before it fails, the flush reports what becomes of all that was submitted in one
transaction. -/
theorem runAndFlush_reports (limit capacity : Nat) (servers : List String)
    (store : DocumentStore) (calls : List Call) :
    ∃ entries final,
      (new limit).runAndFlush ⟨.new (Servers.new servers) capacity, store⟩ calls =
        some (entries, final) ∧
      entries.map Entry.call = calls ∧
      ((∀ entry ∈ entries, entry.answer = .ok ()) →
        final.Reports (store.apply ((calls.flatMap Call.operations).map Operation.write))) := by
  let service : Service := ⟨.new (Servers.new servers) capacity, store⟩
  have accounts : service.pool.Accounts 0 := Pool.new_accounts servers capacity
  have room : 0 < service.pool.limit := by
    change 0 < max capacity 1
    omega
  obtain ⟨entries, last, after, ran, same, replayed, balanced, -⟩ :=
    run_delivers (new limit) accounts room calls
  obtain ⟨kept, free⟩ := run_accounts accounts room ran
  obtain ⟨final, flushed, reports⟩ := last.flush_reports kept free
  refine ⟨entries, final, ?_, same, ?_⟩
  · simp only [runAndFlush, service, ran, flushed, Option.bind_eq_bind, Option.bind_some,
      Option.pure_def]
  intro succeeded
  have submitted : entries.flatMap Entry.accepted = calls.flatMap Call.operations := by
    rw [← same, List.flatMap_map]
    exact List.flatMap_congr fun entry member => Entry.accepted_eq (succeeded entry member)
  have written : (entries.flatMap Entry.committed).flatten = entries.flatMap Entry.written := by
    rw [List.flatten_eq_flatMap, List.flatMap_assoc]
    exact List.flatMap_congr fun entry member => List.flatten_eq_flatMap.symm
  have all : calls.flatMap Call.operations =
      (entries.flatMap Entry.committed).flatten ++ last.operations := by
    rw [← submitted, written]
    exact balanced.symm
  rw [DocumentStore.replay_eq_foldlM, ← DocumentStore.apply_eq_foldlM] at replayed
  rw [all, List.map_append, DocumentStore.apply_append, replayed]
  exact reports

/-- Deferral does not change the result. Two new queues over one store are used in runs that
submit the same operations, whatever their limits and connections, in whatever batches, with
whatever persistency and atomicity, with flushes wherever. If no call of either run fails,
both answer a last flush in the same way, and if it succeeds, the stores are the same: the
registry, and in every table the same rows under the same numbers. -/
theorem runs_leave_same_store (store : DocumentStore) (limit capacity limit' capacity' : Nat)
    (servers servers' : List String) {calls others : List Call}
    (same : calls.flatMap Call.operations = others.flatMap Call.operations) :
    ∃ entries final entries' final',
      (new limit).runAndFlush ⟨.new (Servers.new servers) capacity, store⟩ calls =
        some (entries, final) ∧
      (new limit').runAndFlush ⟨.new (Servers.new servers') capacity', store⟩ others =
        some (entries', final') ∧
      entries.map Entry.call = calls ∧ entries'.map Entry.call = others ∧
      ((∀ entry ∈ entries, entry.answer = .ok ()) → (∀ entry ∈ entries', entry.answer = .ok ()) →
        final.answer = final'.answer ∧
        (final.answer = .ok () → final.service.store = final'.service.store)) := by
  obtain ⟨entries, final, ran, known, reports⟩ :=
    runAndFlush_reports limit capacity servers store calls
  obtain ⟨entries', final', ran', known', reports'⟩ :=
    runAndFlush_reports limit' capacity' servers' store others
  refine ⟨entries, final, entries', final', ran, ran', known, known', ?_⟩
  intro succeeded succeeded'
  have first := reports succeeded
  have second := reports' succeeded'
  rw [← same] at second
  cases result : store.apply ((calls.flatMap Call.operations).map Operation.write) with
  | ok reached =>
    rw [result] at first second
    refine ⟨first.1.trans second.1.symm, ?_⟩
    intro answer
    rw [first.2, second.2]
  | error error =>
    rw [result] at first second
    refine ⟨first.trans second.symm, ?_⟩
    intro answer
    cases first.symm.trans answer

def atOnce : List Call :=
  let store : Store := ⟨"s", Template.posix.semantics.set (.persistency .immediate)⟩
  [.submit (.create store ⟨0⟩ "a"), .submit (.create store ⟨1⟩ "b"), .flush,
    .submit (.delete store "a")]

def heldBack : List Call :=
  let store : Store := ⟨"s", Template.standard.semantics.set (.atomicity .batch)⟩
  [.submit ⟨store.semantics,
      (Batch.create store ⟨0⟩ "a").operations ++ (Batch.create store ⟨1⟩ "b").operations⟩,
    .submit ⟨store.semantics, []⟩, .submit (.delete store "a")]

/-- Written at once or held back to the end, nothing fails, and the stores are the same. -/
theorem runs_leave_same_store_held :
    ∃ entries final entries' final',
      (new 1).runAndFlush ⟨.new (Servers.new ["m"]) 1, .empty⟩ atOnce = some (entries, final) ∧
      (new 9).runAndFlush ⟨.new (Servers.new []) 0, .empty⟩ heldBack = some (entries', final') ∧
      (∀ entry ∈ entries, entry.answer = .ok ()) ∧ (∀ entry ∈ entries', entry.answer = .ok ()) ∧
      final.answer = .ok () ∧ final'.answer = .ok () ∧
      final.service.store = final'.service.store := by
  obtain ⟨entries, final, entries', final', ran, ran', -, -, agree⟩ :=
    @runs_leave_same_store .empty 1 1 9 0 ["m"] [] atOnce heldBack rfl
  have answers : (((new 1).runAndFlush ⟨.new (Servers.new ["m"]) 1, .empty⟩ atOnce).map
      fun (entries, final) => (entries.map Entry.answer, final.answer)) =
        some (List.replicate 4 (.ok ()), .ok ()) := by decide +kernel
  have answers' : (((new 9).runAndFlush ⟨.new (Servers.new []) 0, .empty⟩ heldBack).map
      fun (entries, final) => (entries.map Entry.answer, final.answer)) =
        some (List.replicate 3 (.ok ()), .ok ()) := by decide +kernel
  rw [ran, Option.map_some, Option.some.injEq, Prod.mk.injEq] at answers
  rw [ran', Option.map_some, Option.some.injEq, Prod.mk.injEq] at answers'
  have succeeded : ∀ entry ∈ entries, entry.answer = .ok () := by
    intro entry member
    exact List.eq_of_mem_replicate (answers.1 ▸ List.mem_map_of_mem member)
  have succeeded' : ∀ entry ∈ entries', entry.answer = .ok () := by
    intro entry member
    exact List.eq_of_mem_replicate (answers'.1 ▸ List.mem_map_of_mem member)
  exact ⟨entries, final, entries', final', ran, ran', succeeded, succeeded', answers.2, answers'.2,
    (agree succeeded succeeded').2 answers.2⟩

end Queue
end MetadataClient
