import MetadataClient.Proofs.Pool.Balance
import MetadataClient.Proofs.Queue.Atomicity
import MetadataClient.Proofs.Queue.Writing

/-! How a queue uses the pool. A call that has something to write does so over one connection,
which comes back whatever becomes of the batches; all other calls leave the pool alone. -/
namespace MetadataClient

theorem Batch.applied_lt {batch : Batch} {store : DocumentStore} {error : StoreError}
    (filled : batch.operations ≠ []) (failed : (batch.execute store).failure = some error) :
    (batch.execute store).applied < batch.operations.length := by
  have known := batch.execute_executes store
  generalize batch.execute store = execution at known failed
  cases known with
  | whole atomic performed => cases failed
  | undone atomic failed => exact List.length_pos_iff.mpr filled
  | each single performed => cases failed
  | stopped single split performed failed =>
    simp only [split, List.length_append, List.length_cons]
    omega

namespace Queue

variable {queue : Queue} {service : Service} {taken : List Batch} {immediate : Option Batch}
  {outcome : Outcome}

/-! ## What is queued -/

/-- No batch of the queue is empty, and all of their operations are counted. -/
structure Sound (queue : Queue) : Prop where
  filled : ∀ batch ∈ queue.batches, batch.operations ≠ []
  counted : queue.pending = queue.operations.length

theorem Sound.pending_eq_zero_iff (sound : queue.Sound) :
    queue.pending = 0 ↔ queue.batches = [] := by
  rw [sound.counted, List.length_eq_zero_iff, operations, List.flatMap_eq_nil_iff]
  constructor
  · intro none
    apply List.eq_nil_iff_forall_not_mem.mpr
    intro batch queued
    exact sound.filled batch queued (none batch queued)
  · intro none
    rw [none]
    exact List.forall_mem_nil _

theorem new_sound (limit : Nat) : (new limit).Sound :=
  ⟨List.forall_mem_nil _, rfl⟩

theorem taken_sound (queue : Queue) : queue.take.2.Sound :=
  ⟨List.forall_mem_nil _, rfl⟩

theorem Sound.enqueue (sound : queue.Sound) {batch : Batch} (filled : batch.operations ≠ []) :
    (queue.enqueue batch).Sound := by
  refine ⟨?_, ?_⟩
  · exact List.forall_mem_append.mpr ⟨sound.filled, List.forall_mem_singleton.mpr filled⟩
  · rw [operations_enqueue, List.length_append, ← sound.counted]
    rfl

theorem Sound.requeue (sound : queue.Sound) {batches : List Batch}
    (filled : ∀ batch ∈ batches, batch.operations ≠ []) : (queue.requeue batches).Sound :=
  ⟨List.forall_mem_append.mpr ⟨filled, sound.filled⟩, rfl⟩

theorem execute_filled {batches : List Batch} {store : DocumentStore} {position : Nat} {stop : Stop}
    (filled : ∀ batch ∈ batches, batch.operations ≠ [])
    (stopped : (execute store position batches).stop = some stop) :
    ∃ place, stop.batch = position + place ∧
      ∀ batch ∈ unwritten batches { stop with batch := place }, batch.operations ≠ [] := by
  induction batches generalizing store position with
  | nil => cases stopped
  | cons batch rest ih =>
    obtain ⟨first, later⟩ := List.forall_mem_cons.mp filled
    rw [execute] at stopped
    rcases executed : batch.execute store with ⟨after, committed, applied, failure⟩
    rw [executed] at stopped
    cases failure with
    | some error =>
      cases stopped
      refine ⟨0, rfl, List.forall_mem_cons.mpr ⟨?_, later⟩⟩
      have left : applied < batch.operations.length := by
        have reached := batch.applied_lt first (congrArg Execution.failure executed)
        rwa [executed] at reached
      rw [Batch.skip, ne_eq, List.drop_eq_nil_iff, Nat.not_le]
      exact left
    | none =>
      obtain ⟨place, behind, unwritten⟩ := ih later stopped
      exact ⟨place + 1, by rw [behind]; omega, unwritten⟩

/-- How batches are written: not at all, to the end, up to one that fails, or without ever
having a connection. -/
inductive Writes (queue : Queue) (service : Service) (taken : List Batch)
    (immediate : Option Batch) : Outcome → Prop
  | idle (nothing : taken ++ immediate.toList = []) :
      Writes queue service taken immediate ⟨queue, service, [], .ok (), []⟩
  | done {loan : Loan Connection} {pool : MetadataPool} {progress : Progress}
      (granted : service.pool.acquire metadataIndex = (.granted loan, pool))
      (executed : execute service.store 0 (taken ++ immediate.toList) = progress)
      (complete : progress.stop = none) :
      Writes queue service taken immediate
        ⟨queue, ⟨pool.release loan, progress.store⟩, progress.committed, .ok (), []⟩
  | stopped {loan : Loan Connection} {pool : MetadataPool} {progress : Progress} {stop : Stop}
      {warning : String}
      (granted : service.pool.acquire metadataIndex = (.granted loan, pool))
      (executed : execute service.store 0 (taken ++ immediate.toList) = progress)
      (stopped : progress.stop = some stop) :
      Writes queue service taken immediate
        ⟨queue.requeue (unwritten taken stop), ⟨pool.release loan, progress.store⟩,
          progress.committed, .error stop.error.toError, [warning]⟩
  | denied {reply : Reply Connection} {pool : MetadataPool} {error : Error}
      {warnings : List String}
      (acquired : service.pool.acquire metadataIndex = (reply, pool))
      (answered : reply ≠ .waiting) (none : reply.loan? = none) :
      Writes queue service taken immediate
        ⟨queue.requeue taken, { service with pool }, [], .error error, warnings⟩

theorem write_cases (written : queue.write service taken immediate = some outcome) :
    queue.Writes service taken immediate outcome := by
  rw [write] at written
  split at written
  next nothing =>
    cases written
    exact .idle (List.isEmpty_iff.mp nothing)
  next =>
    rcases acquired : service.pool.acquire metadataIndex with ⟨reply, pool⟩
    rw [acquired] at written
    cases reply with
    | waiting => cases written
    | refused | unreachable =>
      cases written
      refine .denied acquired ?_ rfl
      intro waiting
      cases waiting
    | granted loan =>
      simp only at written
      split at written
      next complete =>
        cases written
        exact .done acquired rfl complete
      next stop stopped =>
        cases written
        exact .stopped acquired rfl stopped

/-- Whatever becomes of the batches, the queue that is left is sound. -/
theorem Sound.write (sound : queue.Sound)
    (filled : ∀ batch ∈ taken ++ immediate.toList, batch.operations ≠ [])
    (written : queue.write service taken immediate = some outcome) : outcome.queue.Sound := by
  cases write_cases written with
  | idle nothing => exact sound
  | done granted executed complete => exact sound
  | denied acquired answered none => exact sound.requeue (List.forall_mem_append.mp filled).1
  | @stopped _ _ _ stop _ granted executed stopped =>
    subst executed
    obtain ⟨place, same, unwritten⟩ := execute_filled filled stopped
    rw [Nat.zero_add] at same
    subst same
    have front := unwritten_prefix taken immediate.toList stop
    exact sound.requeue fun batch left => unwritten batch (front.subset left)

theorem Sound.drain (sound : queue.Sound)
    (filled : ∀ batch ∈ immediate.toList, batch.operations ≠ [])
    (drained : queue.drain service immediate = some outcome) : outcome.queue.Sound :=
  (taken_sound queue).write (List.forall_mem_append.mpr ⟨sound.filled, filled⟩) drained

theorem Sound.flush (sound : queue.Sound) (flushed : queue.flush service = some outcome) :
    outcome.queue.Sound := by
  have counted : Sound { queue with flushes := queue.flushes + 1 } := ⟨sound.filled, sound.counted⟩
  exact counted.drain (List.forall_mem_nil _) flushed

/-- How a batch is submitted. -/
inductive Submits (queue : Queue) (service : Service) (batch : Batch) (outcome : Outcome) : Prop
  | ignored (empty : batch.operations = [])
      (same : outcome = ⟨queue, service, [], .ok (), []⟩)
  | queued (filled : batch.operations ≠ [])
      (same : outcome = ⟨queue.enqueue batch, service, [], .ok (), []⟩)
  | flushed (filled : batch.operations ≠ [])
      (flushed : (queue.enqueue batch).flush service = some outcome)
  | drained (filled : batch.operations ≠ [])
      (drained : queue.drain service (some batch) = some outcome)

theorem submit_cases {batch : Batch} (submitted : queue.submit service batch = some outcome) :
    queue.Submits service batch outcome := by
  rw [submit] at submitted
  split at submitted
  next empty =>
    cases submitted
    exact .ignored (List.isEmpty_iff.mp empty) rfl
  next filled =>
    rw [Batch.isEmpty, List.isEmpty_iff] at filled
    split at submitted
    next =>
      dsimp only at submitted
      split at submitted
      next => exact .flushed filled submitted
      next =>
        cases submitted
        exact .queued filled rfl
    next => exact .drained filled submitted

theorem Sound.submit (sound : queue.Sound) {batch : Batch}
    (submitted : queue.submit service batch = some outcome) : outcome.queue.Sound := by
  cases submit_cases submitted with
  | ignored empty same => exact same ▸ sound
  | queued filled same => exact same ▸ sound.enqueue filled
  | flushed filled flushed => exact (sound.enqueue filled).flush flushed
  | drained filled drained =>
    have immediate : ∀ other ∈ (some batch).toList, other.operations ≠ [] :=
      List.forall_mem_singleton.mpr filled
    exact sound.drain immediate drained

/-! ## What is borrowed -/

variable (backed : 0 < service.pool.slots.length)
include backed

/-- Whatever becomes of the batches, they are written over one connection. -/
theorem write_borrows (filled : taken ++ immediate.toList ≠ [])
    (written : queue.write service taken immediate = some outcome) :
    service.pool.Borrows outcome.service.pool := by
  cases write_cases written with
  | idle nothing => contradiction
  | done granted executed complete => exact Pool.borrows_of_granted granted
  | stopped granted executed stopped => exact Pool.borrows_of_granted granted
  | denied acquired answered none =>
    rcases Pool.acquire_metadata backed with full | ⟨loan, between, granted⟩
    · rw [acquired] at full
      contradiction
    · cases acquired.symm.trans granted
      cases none

theorem flush_borrows (filled : queue.batches ≠ []) (flushed : queue.flush service = some outcome) :
    service.pool.Borrows outcome.service.pool := by
  refine write_borrows backed ?_ flushed
  rwa [Option.toList_none, List.append_nil]

theorem drain_borrows {batch : Batch} (drained : queue.drain service (some batch) = some outcome) :
    service.pool.Borrows outcome.service.pool := by
  refine write_borrows backed ?_ drained
  rw [Option.toList_some]
  exact List.concat_ne_nil batch queue.batches

theorem submit_borrows {batch : Batch} (filled : batch.operations ≠ [])
    (immediate : batch.semantics.persistency.isDeferrable = false)
    (submitted : queue.submit service batch = some outcome) :
    service.pool.Borrows outcome.service.pool := by
  have some : ¬batch.isEmpty = true := by
    rwa [Batch.isEmpty, List.isEmpty_iff]
  rw [submit, if_neg some, immediate, if_neg Bool.false_ne_true] at submitted
  exact drain_borrows backed submitted

omit backed

/-- A queue that holds nothing needs no connection to be flushed. -/
theorem flush_idle (empty : queue.batches = []) (flushed : queue.flush service = some outcome) :
    outcome.service = service := by
  rw [flush, drain] at flushed
  simp only [take, empty] at flushed
  cases flushed
  rfl

/-- Whatever is submitted, at most one connection is used, and it comes back. -/
theorem submit_uses (backed : 0 < service.pool.slots.length) {batch : Batch}
    (submitted : queue.submit service batch = some outcome) :
    outcome.service.pool = service.pool ∨ service.pool.Borrows outcome.service.pool := by
  cases submit_cases submitted with
  | ignored empty same => exact .inl (same ▸ rfl)
  | queued filled same => exact .inl (same ▸ rfl)
  | flushed filled flushed => exact .inr (flush_borrows backed (List.concat_ne_nil _ _) flushed)
  | drained filled drained => exact .inr (drain_borrows backed drained)

/-! ## Counting flushes -/

theorem write_flushes (written : queue.write service taken immediate = some outcome) :
    outcome.queue.flushes = queue.flushes := by
  cases write_cases written with
  | idle nothing => rfl
  | done granted executed complete => rfl
  | stopped granted executed stopped => rfl
  | denied acquired answered none => rfl

theorem flush_flushes (flushed : queue.flush service = some outcome) :
    outcome.queue.flushes = queue.flushes + 1 :=
  write_flushes flushed

end Queue
end MetadataClient
