import MetadataClient.Proofs.DocumentStore.Search
import MetadataClient.Proofs.DocumentStore.Transaction
import MetadataClient.Proofs.Queue.Delivery
import Mathlib.Data.List.Forall2

/-! Atomicity of batches. A batch that is to be carried out as a whole is in one transaction, and
of any other batch each operation is in a transaction of its own, in order. A batch that
failed is cut where it stopped and tried again later, so this has to hold over all the calls
of a queue: after each transaction the store has a batch of the first kind as a whole or has
nothing of it, and of one of the other kind it has the first operations. -/
namespace MetadataClient

theorem DocumentStore.apply_singleton (store : DocumentStore) (write : Write) :
    store.apply [write] = store.perform write := by
  rw [apply_eq_foldlM, List.foldlM_cons]
  cases store.perform write <;> rfl

theorem DocumentStore.replay_eq_foldlM (store : DocumentStore)
    (transactions : List (List Operation)) :
    store.replay transactions = (transactions.flatten.map Operation.write).foldlM perform store := by
  induction transactions generalizing store with
  | nil => rfl
  | cons operations rest ih =>
    rw [List.flatten_cons, List.map_append, List.foldlM_append, ← apply_eq_foldlM, replay,
      List.foldlM_cons]
    exact bind_congr fun after => ih after

/-- A run of transactions that succeeds can be looked at between any two of them. -/
theorem DocumentStore.exists_of_replay_append {store last : DocumentStore}
    {past later : List (List Operation)} (replayed : store.replay (past ++ later) = .ok last) :
    ∃ reached, store.replay past = .ok reached ∧ reached.replay later = .ok last := by
  rw [replay_append] at replayed
  exact exists_of_bind replayed

namespace Batch

/-- What an execution comes to, in a store in which some operations may fail. -/
inductive Executes (batch : Batch) (store : DocumentStore) : Execution → Prop
  | whole {after : DocumentStore} (atomic : batch.semantics.atomicity = .batch)
      (performed : (batch.operations.map Operation.write).foldlM DocumentStore.perform store =
        .ok after) :
      Executes batch store ⟨after, [batch.operations], batch.size, none⟩
  | undone {error : StoreError} (atomic : batch.semantics.atomicity = .batch)
      (failed : (batch.operations.map Operation.write).foldlM DocumentStore.perform store =
        .error error) :
      Executes batch store ⟨store, [], 0, some error⟩
  | each {after : DocumentStore} (single : batch.semantics.atomicity ≠ .batch)
      (performed : (batch.operations.map Operation.write).foldlM DocumentStore.perform store =
        .ok after) :
      Executes batch store ⟨after, batch.operations.map ([·]), batch.size, none⟩
  | stopped {after : DocumentStore} {done rest : List Operation} {operation : Operation}
      {error : StoreError} (single : batch.semantics.atomicity ≠ .batch)
      (split : batch.operations = done ++ operation :: rest)
      (performed : (done.map Operation.write).foldlM DocumentStore.perform store = .ok after)
      (failed : after.perform operation.write = .error error) :
      Executes batch store ⟨after, done.map ([·]), done.length, some error⟩

/-- One by one, all operations are performed or those before the first that fails. -/
theorem executeEach_performs (store : DocumentStore) (applied : Nat)
    (operations : List Operation) :
    (∃ after, (operations.map Operation.write).foldlM DocumentStore.perform store = .ok after ∧
      executeEach store applied operations =
        ⟨after, operations.map ([·]), applied + operations.length, none⟩) ∨
    ∃ done operation rest after error, operations = done ++ operation :: rest ∧
      (done.map Operation.write).foldlM DocumentStore.perform store = .ok after ∧
      after.perform operation.write = .error error ∧
      executeEach store applied operations =
        ⟨after, done.map ([·]), applied + done.length, some error⟩ := by
  induction operations generalizing store applied with
  | nil => exact .inl ⟨store, rfl, rfl⟩
  | cons operation rest ih =>
    rw [executeEach, DocumentStore.apply_singleton]
    cases first : store.perform operation.write with
    | error error => exact .inr ⟨[], operation, rest, store, error, rfl, rfl, first, rfl⟩
    | ok reached =>
      rcases ih reached (applied + 1) with
        ⟨after, performed, executed⟩ | ⟨done, last, behind, after, error, rfl, performed, failed,
          executed⟩
      · left
        refine ⟨after, ?_, ?_⟩
        · rw [List.map_cons, List.foldlM_cons, first]
          exact performed
        · simp only [executed, List.map_cons, List.length_cons, Nat.add_assoc, Nat.add_comm 1]
      · right
        refine ⟨operation :: done, last, behind, after, error, rfl, ?_, failed, ?_⟩
        · rw [List.map_cons, List.foldlM_cons, first]
          exact performed
        · simp only [executed, List.map_cons, List.length_cons, Nat.add_assoc, Nat.add_comm 1]

theorem execute_executes (batch : Batch) (store : DocumentStore) :
    batch.Executes store (batch.execute store) := by
  have each (single : batch.semantics.atomicity ≠ .batch) :
      batch.Executes store (executeEach store 0 batch.operations) := by
    rcases executeEach_performs store 0 batch.operations with
      ⟨after, performed, executed⟩ | ⟨done, operation, rest, after, error, split, performed,
        failed, executed⟩
    · rw [executed, Nat.zero_add]
      exact .each single performed
    · rw [executed, Nat.zero_add]
      exact .stopped single split performed failed
  rw [execute]
  cases kind : batch.semantics.atomicity with
  | batch =>
    rw [DocumentStore.apply_eq_foldlM]
    cases performed : (batch.operations.map Operation.write).foldlM DocumentStore.perform store with
    | ok after => exact .whole kind performed
    | error error => exact .undone kind performed
  | operation | none =>
    apply each
    rw [kind]
    intro same
    cases same

/-- The transactions that a batch may have in a store: as a whole, one or none, or one for
each of its first operations. -/
inductive Part (batch : Batch) : List (List Operation) → Prop
  | nothing : Part batch []
  | whole (atomic : batch.semantics.atomicity = .batch) : Part batch [batch.operations]
  | first (single : batch.semantics.atomicity ≠ .batch) (count : Nat) :
      Part batch ((batch.operations.take count).map ([·]))

theorem Part.take {batch : Batch} {transactions : List (List Operation)}
    (part : batch.Part transactions) (count : Nat) : batch.Part (transactions.take count) := by
  cases part with
  | nothing =>
    rw [List.take_nil]
    exact .nothing
  | whole atomic =>
    cases count with
    | zero => exact .nothing
    | succ count =>
      rw [List.take_succ_cons, List.take_nil]
      exact .whole atomic
  | first single more =>
    rw [← List.map_take, List.take_take]
    exact .first single _

theorem part_each {batch : Batch} (single : batch.semantics.atomicity ≠ .batch)
    {first rest : List Operation} (split : batch.operations = first ++ rest) :
    batch.Part (first.map ([·])) := by
  have part := Part.first single first.length
  rw [split, List.take_left] at part
  exact part

namespace Executes

variable {batch : Batch} {store : DocumentStore} {execution : Execution}

/-- An execution that succeeds commits a part of the batch. -/
theorem part (executed : batch.Executes store execution) (succeeded : execution.failure = none) :
    batch.Part execution.committed := by
  cases executed with
  | whole atomic => exact .whole atomic
  | each single => exact part_each single (List.append_nil _).symm
  | undone | stopped => cases succeeded

/-- What an execution that fails has committed and what is later committed of the rest are a
part of the batch together. -/
theorem part_append (executed : batch.Executes store execution) {error : StoreError}
    (failed : execution.failure = some error) {later : List (List Operation)}
    (rest : (batch.skip execution.applied).Part later) :
    batch.Part (execution.committed ++ later) := by
  cases executed with
  | whole | each => cases failed
  | undone => exact rest
  | stopped single split performed =>
    rw [skip, split, List.drop_left] at rest
    cases rest with
    | nothing =>
      rw [List.append_nil]
      exact part_each single split
    | whole atomic => exact absurd atomic single
    | first _ count =>
      rw [← List.map_append]
      apply part_each single
      rw [split, List.append_assoc, List.take_append_drop]

end Executes

theorem parts_nothing (batches : List Batch) :
    List.Forall₂ Part batches (batches.map fun _ => []) := by
  rw [List.forall₂_map_right_iff, List.forall₂_same]
  intro batch member
  exact .nothing

theorem parts_of_append {batches : List Batch} {parts : List (List (List Operation))}
    (whole : List.Forall₂ Part batches parts) {past later : List (List Operation)}
    (cut : parts.flatten = past ++ later) :
    ∃ pasts, List.Forall₂ Part batches pasts ∧ List.Forall₂ (· <+: ·) pasts parts ∧
      past = pasts.flatten := by
  induction whole generalizing past later with
  | nil =>
    obtain ⟨rfl, -⟩ := List.append_eq_nil_iff.mp cut.symm
    exact ⟨[], .nil, .nil, rfl⟩
  | @cons batch part batches parts first _ ih =>
    rw [List.flatten_cons] at cut
    rcases List.append_eq_append_iff.mp cut with ⟨further, rfl, rest⟩ | ⟨missing, rfl, -⟩
    · obtain ⟨pasts, some, shorter, rfl⟩ := ih rest
      exact ⟨part :: pasts, .cons first some, .cons List.prefix_rfl shorter, rfl⟩
    · obtain ⟨pasts, some, shorter, silent⟩ := ih (List.nil_append parts.flatten).symm
      have begun := first.take past.length
      rw [List.take_left] at begun
      refine ⟨past :: pasts, .cons begun some, .cons (List.prefix_append ..) shorter, ?_⟩
      rw [List.flatten_cons, ← silent, List.append_nil]

/-- Of each of the batches these transactions and then those of what is left are a part: whatever
part of the batches that are left is committed later. -/
def Leaves (batches : List Batch) (transactions : List (List Operation)) (left : List Batch) :
    Prop :=
  ∀ later, List.Forall₂ Part left later →
    ∃ parts, List.Forall₂ Part batches parts ∧ transactions ++ later.flatten = parts.flatten

namespace Leaves

variable {batches left others : List Batch} {first second : List (List Operation)}

theorem refl (batches : List Batch) : Leaves batches [] batches := by
  intro later parts
  exact ⟨later, parts, rfl⟩

theorem trans (before : Leaves batches first left) (after : Leaves left second others) :
    Leaves batches (first ++ second) others := by
  intro later parts
  obtain ⟨middle, between, joined⟩ := after later parts
  obtain ⟨all, whole, same⟩ := before middle between
  refine ⟨all, whole, ?_⟩
  rw [List.append_assoc, joined, same]

theorem append_right (leaves : Leaves batches first left) (others : List Batch) :
    Leaves (batches ++ others) first (left ++ others) := by
  intro later parts
  have before := List.forall₂_take left.length parts
  have behind := List.forall₂_drop left.length parts
  rw [List.take_left] at before
  rw [List.drop_left] at behind
  obtain ⟨all, whole, same⟩ := leaves _ before
  refine ⟨all ++ later.drop left.length, List.rel_append whole behind, ?_⟩
  rw [List.flatten_append, ← same, List.append_assoc, ← List.flatten_append,
    List.take_append_drop]

theorem cons (batch : Batch) (part : batch.Part first) (leaves : Leaves batches second left) :
    Leaves (batch :: batches) (first ++ second) left := by
  intro later parts
  obtain ⟨all, whole, same⟩ := leaves later parts
  refine ⟨first :: all, .cons part whole, ?_⟩
  rw [List.append_assoc, same, List.flatten_cons]

theorem flatten_nothing (batches : List Batch) :
    (batches.map fun _ => ([] : List (List Operation))).flatten = [] := by
  rw [List.map_const', List.flatten_replicate_nil]

theorem of_shorter (leaves : Leaves batches first left) (kept : others <+: left) :
    Leaves batches first others := by
  intro later parts
  obtain ⟨dropped, rfl⟩ := kept
  obtain ⟨all, whole, same⟩ := leaves _ (List.rel_append parts (parts_nothing dropped))
  refine ⟨all, whole, ?_⟩
  rw [← same, List.flatten_append, flatten_nothing, List.append_nil]

/-- Of each of the batches the transactions are a part. -/
theorem parts (leaves : Leaves batches first left) :
    ∃ parts, List.Forall₂ Part batches parts ∧ first = parts.flatten := by
  obtain ⟨parts, whole, same⟩ := leaves _ (parts_nothing left)
  rw [flatten_nothing, List.append_nil] at same
  exact ⟨parts, whole, same⟩

end Leaves
end Batch

namespace Queue

/-- Batches that were executed leave those that were not written. -/
theorem execute_leaves (store : DocumentStore) (position : Nat) (batches : List Batch) :
    match (execute store position batches).stop with
    | none => Batch.Leaves batches (execute store position batches).committed []
    | some stop => ∃ before batch after, batches = before ++ batch :: after ∧
        stop.batch = position + before.length ∧
        Batch.Leaves batches (execute store position batches).committed
          (batch.skip stop.applied :: after) := by
  induction batches generalizing store position with
  | nil => exact .refl []
  | cons batch rest ih =>
    have known := batch.execute_executes store
    rw [execute]
    rcases executed : batch.execute store with ⟨after, committed, applied, failure⟩
    rw [executed] at known
    cases failure with
    | some error =>
      refine ⟨[], batch, rest, rfl, rfl, ?_⟩
      intro later parts
      cases parts with
      | @cons _ part _ parts first others =>
        refine ⟨(committed ++ part) :: parts, .cons (known.part_append rfl first) others, ?_⟩
        rw [List.flatten_cons, List.flatten_cons, List.append_assoc]
    | none =>
      have stopped := ih after (position + 1)
      simp only
      split at stopped
      next => exact .cons batch (known.part rfl) stopped
      next stop =>
        obtain ⟨before, failed, behind, rfl, place, leaves⟩ := stopped
        refine ⟨batch :: before, failed, behind, rfl, ?_, .cons batch (known.part rfl) leaves⟩
        rw [place, List.length_cons]
        omega

theorem unwritten_prefix (taken others : List Batch) (stop : Stop) :
    unwritten taken stop <+: unwritten (taken ++ others) stop := by
  rw [unwritten, unwritten, List.drop_append]
  cases taken.drop stop.batch with
  | nil => exact List.nil_prefix
  | cons batch rest => exact List.prefix_append ..

/-- Batches that were taken from a queue, and one behind them, leave those that are put back. -/
theorem write_leaves {queue : Queue} {service : Service} {taken : List Batch}
    {immediate : Option Batch} {outcome : Outcome} (empty : queue.batches = [])
    (written : queue.write service taken immediate = some outcome) :
    Batch.Leaves (taken ++ immediate.toList) outcome.committed outcome.queue.batches := by
  have restored (batches : List Batch) : (queue.requeue batches).batches = batches := by
    simp only [requeue, empty, List.append_nil]
  have untouched : Batch.Leaves (taken ++ immediate.toList) [] taken :=
    (Batch.Leaves.refl _).of_shorter (List.prefix_append ..)
  rw [write] at written
  split at written
  next none =>
    cases written
    rw [List.isEmpty_iff.mp none, empty]
    exact .refl []
  next =>
    rcases acquired : service.pool.acquire metadataIndex with ⟨reply, pool⟩
    rw [acquired] at written
    cases reply with
    | waiting => cases written
    | refused | unreachable =>
      cases written
      rw [restored]
      exact untouched
    | granted loan =>
      have stopped := execute_leaves service.store 0 (taken ++ immediate.toList)
      simp only at written
      split at written
      next free =>
        cases written
        rw [free] at stopped
        rw [empty]
        exact stopped
      next stop found =>
        cases written
        rw [found] at stopped
        obtain ⟨before, batch, after, split, place, leaves⟩ := stopped
        have all : unwritten (taken ++ immediate.toList) stop =
            batch.skip stop.applied :: after := by
          rw [unwritten, split, place, Nat.zero_add, List.drop_left]
        rw [restored]
        exact leaves.of_shorter (all ▸ unwritten_prefix taken immediate.toList stop)

def Call.batches : Call → List Batch
  | .submit batch => [batch]
  | .flush => []

theorem call_leaves {queue : Queue} {service : Service} {call : Call} {outcome : Outcome}
    (called : queue.call service call = some outcome) :
    Batch.Leaves (queue.batches ++ call.batches) outcome.committed outcome.queue.batches := by
  cases call with
  | flush => exact write_leaves rfl called
  | submit batch =>
    rw [Queue.call, submit] at called
    split at called
    next =>
      cases called
      exact (Batch.Leaves.refl _).of_shorter (List.prefix_append ..)
    next =>
      split at called
      next =>
        dsimp only at called
        split at called
        · have left := write_leaves rfl called
          rw [Option.toList_none, List.append_nil] at left
          exact left
        · cases called
          exact .refl _
      next => exact write_leaves rfl called

theorem run_leaves {queue : Queue} {service : Service} {calls : List Call} {entries : List Entry}
    {last : Queue} {after : Service} (ran : queue.run service calls = some (entries, last, after)) :
    Batch.Leaves (queue.batches ++ calls.flatMap Call.batches) (entries.flatMap Entry.committed)
      last.batches := by
  induction calls generalizing queue service entries with
  | nil =>
    cases ran
    rw [List.flatMap_nil, List.append_nil]
    exact .refl _
  | cons call rest ih =>
    simp only [run, Option.bind_eq_bind, Option.bind_eq_some_iff, Option.pure_def] at ran
    obtain ⟨outcome, called, ⟨others, last, final⟩, later, same⟩ := ran
    cases same
    rw [List.flatMap_cons, List.flatMap_cons, ← List.append_assoc]
    exact ((call_leaves called).append_right _).trans (ih later)

/-- Batches at every commit. Of a batch that is executed as a whole all operations are performed
in one transaction, or the store stays as it was; of any other batch those before the first
that fails are performed, each in a transaction of its own. In a run of a new queue, whatever
fails and is tried again, each submitted batch has a part in the store after any of the
transactions, one that only grows, and nothing else is there. This is the store that is
searched by a cursor that is opened then. -/
theorem run_keeps_batches_whole :
    (∀ (batch : Batch) (store : DocumentStore), batch.Executes store (batch.execute store)) ∧
    ∀ (limit capacity : Nat) (servers : List String) (store : DocumentStore) (calls : List Call),
      ∃ entries last after parts,
        (new limit).run ⟨.new (Servers.new servers) capacity, store⟩ calls =
          some (entries, last, after) ∧
        entries.map Entry.call = calls ∧
        List.Forall₂ Batch.Part (calls.flatMap Call.batches) parts ∧
        entries.flatMap Entry.committed = parts.flatten ∧
        store.replay parts.flatten = .ok after.store ∧
        ∀ past later, parts.flatten = past ++ later → ∃ reached pasts,
          store.replay past = .ok reached ∧ reached.replay later = .ok after.store ∧
          past = pasts.flatten ∧
          List.Forall₂ Batch.Part (calls.flatMap Call.batches) pasts ∧
          List.Forall₂ (· <+: ·) pasts parts ∧
          (pasts.flatten.flatten.map Operation.write).foldlM DocumentStore.perform store =
            .ok reached ∧
          ∀ source options, reached.Searches source options := by
  refine ⟨Batch.execute_executes, ?_⟩
  intro limit capacity servers store calls
  let service : Service := ⟨.new (Servers.new servers) capacity, store⟩
  have accounts : service.pool.Accounts 0 := Pool.new_accounts servers capacity
  have room : 0 < service.pool.limit := by
    change 0 < max capacity 1
    omega
  obtain ⟨entries, last, after, ran, same, replayed, -⟩ :=
    run_delivers (new limit) accounts room calls
  obtain ⟨parts, whole, committed⟩ := (run_leaves ran).parts
  rw [committed] at replayed
  refine ⟨entries, last, after, parts, ran, same, whole, committed, replayed, ?_⟩
  intro past later cut
  obtain ⟨pasts, some, shorter, rfl⟩ := Batch.parts_of_append whole cut
  rw [cut] at replayed
  obtain ⟨reached, before, behind⟩ := DocumentStore.exists_of_replay_append replayed
  refine ⟨reached, pasts, before, behind, rfl, some, shorter, ?_, reached.searches⟩
  rw [← DocumentStore.replay_eq_foldlM]
  exact before

end Queue
end MetadataClient
