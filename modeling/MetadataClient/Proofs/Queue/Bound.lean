import MetadataClient.Proofs.Queue.Borrowing

/-! How full a queue becomes. It holds only batches that may wait and counts their operations, and
it reaches its limit only if what should have emptied it has failed. -/
namespace MetadataClient
namespace Queue

variable {queue : Queue} {service : Service} {taken : List Batch} {immediate : Option Batch}
  {outcome : Outcome}

/-! ## Batches that may wait -/

/-- Every batch of the queue may wait. -/
def Patient (queue : Queue) : Prop :=
  ∀ batch ∈ queue.batches, batch.semantics.persistency.isDeferrable = true

theorem Patient.enqueue (patient : queue.Patient) {batch : Batch}
    (waits : batch.semantics.persistency.isDeferrable = true) : (queue.enqueue batch).Patient :=
  List.forall_mem_append.mpr ⟨patient, List.forall_mem_singleton.mpr waits⟩

theorem Patient.requeue (patient : queue.Patient) {batches : List Batch}
    (wait : ∀ batch ∈ batches, batch.semantics.persistency.isDeferrable = true) :
    (queue.requeue batches).Patient :=
  List.forall_mem_append.mpr ⟨wait, patient⟩

theorem unwritten_wait {stop : Stop}
    (wait : ∀ batch ∈ taken, batch.semantics.persistency.isDeferrable = true) :
    ∀ batch ∈ unwritten taken stop, batch.semantics.persistency.isDeferrable = true := by
  have behind : ∀ batch ∈ taken.drop stop.batch,
      batch.semantics.persistency.isDeferrable = true := by
    intro batch left
    exact wait batch (List.mem_of_mem_drop left)
  rw [unwritten]
  split
  next => exact List.forall_mem_nil _
  next failed rest left =>
    rw [left] at behind
    exact List.forall_mem_cons.mpr (List.forall_mem_cons.mp behind)

/-! ## Single calls -/

/-- How a queue is emptied. What may wait is all that can be left, and nothing is left unless there
was a failure. -/
structure Empties (queue : Queue) (outcome : Outcome) : Prop where
  limit : outcome.queue.limit = queue.limit
  flushes : outcome.queue.flushes = queue.flushes
  patient : queue.Patient → outcome.queue.Patient
  emptied : outcome.answer = .ok () → outcome.queue.pending = 0

theorem drain_empties (drained : queue.drain service immediate = some outcome) :
    queue.Empties outcome := by
  have nothing : queue.take.2.Patient := List.forall_mem_nil _
  cases write_cases drained with
  | idle | done =>
    constructor
    · rfl
    · rfl
    · intro patient
      exact nothing
    · intro succeeded
      rfl
  | stopped =>
    constructor
    · rfl
    · rfl
    · intro patient
      exact nothing.requeue (unwritten_wait patient)
    · intro succeeded
      cases succeeded
  | denied =>
    constructor
    · rfl
    · rfl
    · intro patient
      exact nothing.requeue patient
    · intro succeeded
      cases succeeded

def Call.acts : Call → Bool
  | .submit batch => !batch.isEmpty
  | .flush => true

/-- The call flushes a queue that holds so many operations: it is a flush, or it submits
operations that may wait and with which the queue is full. -/
def Call.flushes (limit pending : Nat) : Call → Bool
  | .submit batch => !batch.isEmpty && batch.semantics.persistency.isDeferrable &&
      decide (limit ≤ pending + batch.size)
  | .flush => true

/-- What a call does to the queue. -/
structure Changes (queue : Queue) (call : Call) (outcome : Outcome) : Prop where
  limit : outcome.queue.limit = queue.limit
  patient : queue.Patient → outcome.queue.Patient
  flushes : outcome.queue.flushes =
    queue.flushes + if call.flushes queue.limit queue.pending then 1 else 0
  idle : call.acts = false → outcome.queue = queue
  bounded : call.acts = true → outcome.answer = .ok () →
    outcome.queue.pending = 0 ∨ outcome.queue.pending < queue.limit

theorem flush_changes (flushed : queue.flush service = some outcome) :
    queue.Changes .flush outcome := by
  have empties := drain_empties flushed
  exact ⟨empties.limit, empties.patient, empties.flushes, nofun,
    fun _ succeeded => .inl (empties.emptied succeeded)⟩

section Submission

variable {batch : Batch}

theorem changes_of_empty (empty : batch.isEmpty = true) :
    queue.Changes (.submit batch) ⟨queue, service, [], .ok (), []⟩ := by
  constructor
  · rfl
  · exact id
  · simp [Call.flushes, empty]
  · intro idle
    rfl
  · simp [Call.acts, empty]

variable (filled : batch.isEmpty = false)
include filled

theorem changes_of_urgent (urgent : ¬batch.semantics.persistency.isDeferrable = true)
    (empties : queue.Empties outcome) : queue.Changes (.submit batch) outcome := by
  have uncounted : (Call.submit batch).flushes queue.limit queue.pending = false := by
    simp [Call.flushes, urgent]
  constructor
  · exact empties.limit
  · exact empties.patient
  · rw [uncounted]
    exact empties.flushes
  · simp [Call.acts, filled]
  · intro acts succeeded
    exact .inl (empties.emptied succeeded)

variable (waits : batch.semantics.persistency.isDeferrable = true)
include waits

theorem changes_of_room (room : ¬queue.limit ≤ queue.pending + batch.size) :
    queue.Changes (.submit batch) ⟨queue.enqueue batch, service, [], .ok (), []⟩ := by
  have uncounted : (Call.submit batch).flushes queue.limit queue.pending = false := by
    simpa [Call.flushes, filled, waits] using room
  constructor
  · rfl
  · intro patient
    exact patient.enqueue waits
  · rw [uncounted]
    rfl
  · simp [Call.acts, filled]
  · intro acts succeeded
    exact .inr (Nat.lt_of_not_le room)

theorem changes_of_full (full : queue.limit ≤ queue.pending + batch.size)
    (flushed : (queue.enqueue batch).Changes .flush outcome) :
    queue.Changes (.submit batch) outcome := by
  have counted : (Call.submit batch).flushes queue.limit queue.pending = true := by
    simpa [Call.flushes, filled, waits] using full
  constructor
  · exact flushed.limit
  · intro patient
    exact flushed.patient (patient.enqueue waits)
  · rw [counted]
    exact flushed.flushes
  · simp [Call.acts, filled]
  · intro acts succeeded
    exact flushed.bounded rfl succeeded

omit filled waits

theorem submit_changes (submitted : queue.submit service batch = some outcome) :
    queue.Changes (.submit batch) outcome := by
  rw [submit] at submitted
  split at submitted
  next empty =>
    cases submitted
    exact changes_of_empty empty
  next filled =>
    rw [Bool.not_eq_true] at filled
    split at submitted
    next waits =>
      dsimp only at submitted
      split at submitted
      next full => exact changes_of_full filled waits full (flush_changes submitted)
      next room =>
        cases submitted
        exact changes_of_room filled waits room
    next urgent => exact changes_of_urgent filled urgent (drain_empties submitted)

end Submission

theorem call_changes {call : Call} (called : queue.call service call = some outcome) :
    queue.Changes call outcome := by
  cases call with
  | submit batch => exact submit_changes called
  | flush => exact flush_changes called

theorem Sound.call (sound : queue.Sound) {call : Call}
    (called : queue.call service call = some outcome) : outcome.queue.Sound := by
  cases call with
  | submit batch => exact sound.submit called
  | flush => exact sound.flush called

/-! ## Histories -/

/-- What is known of a call that ended like this. -/
def Outcome.entry (outcome : Outcome) (queue : Queue) (call : Call) : Entry :=
  ⟨call, outcome.answer, queue.operations, outcome.committed, outcome.queue.operations⟩

/-- What has been done with a queue, the latest call first. Between two calls others may do what
they like with the pool and with the store. -/
inductive History (limit : Nat) : List Entry → Queue → Prop
  | new : History limit [] (.new limit)
  | call {entries : List Entry} {queue : Queue} {service : Service} {call : Call}
      {outcome : Outcome} (history : History limit entries queue)
      (called : queue.call service call = some outcome) :
      History limit (outcome.entry queue call :: entries) outcome.queue

/-- The latest call that was a flush or submitted something. -/
def latest (entries : List Entry) : Option Entry :=
  entries.find? fun entry => entry.call.acts

/-- What is known of a queue from its history. -/
structure Bounded (limit : Nat) (entries : List Entry) (queue : Queue) : Prop where
  fixed : queue.limit = limit
  counted : queue.pending = (queue.batches.map Batch.size).sum
  filled : ∀ batch ∈ queue.batches, batch.operations ≠ []
  patient : ∀ batch ∈ queue.batches, batch.semantics.persistency.isDeferrable = true
  room : (∀ entry, latest entries = some entry → entry.answer = .ok ()) →
    queue.pending = 0 ∨ queue.pending < limit
  flushes : queue.flushes =
    entries.countP fun entry => entry.call.flushes limit entry.waiting.length

variable {limit : Nat} {entries : List Entry}

theorem Bounded.sound (bounded : Bounded limit entries queue) : queue.Sound where
  filled := bounded.filled
  counted := by
    rw [bounded.counted, operations, List.length_flatMap]
    rfl

theorem Bounded.exists_failure (bounded : Bounded limit entries queue) (some : queue.pending ≠ 0)
    (full : limit ≤ queue.pending) :
    ∃ entry error, latest entries = .some entry ∧ entry.answer = .error error := by
  have failed : ¬∀ entry, latest entries = .some entry → entry.answer = .ok () := by
    intro succeeded
    rcases bounded.room succeeded with nothing | less
    · exact some nothing
    · exact Nat.not_le_of_lt less full
  obtain ⟨entry, unlike⟩ := Classical.not_forall.mp failed
  obtain ⟨found, refused⟩ := Classical.not_imp.mp unlike
  cases answered : entry.answer with
  | ok => exact absurd answered refused
  | error error => exact ⟨entry, error, found, answered⟩

theorem new_bounded (limit : Nat) : Bounded limit [] (new limit) where
  fixed := rfl
  counted := rfl
  filled := List.forall_mem_nil _
  patient := List.forall_mem_nil _
  room _ := .inl rfl
  flushes := rfl

theorem Bounded.call (bounded : Bounded limit entries queue) {call : Call}
    (called : queue.call service call = some outcome) :
    Bounded limit (outcome.entry queue call :: entries) outcome.queue := by
  have changes := call_changes called
  have sound := bounded.sound.call called
  constructor
  · exact changes.limit.trans bounded.fixed
  · rw [sound.counted, operations, List.length_flatMap]
    rfl
  · exact sound.filled
  · exact changes.patient bounded.patient
  · intro succeeded
    cases acts : call.acts with
    | true =>
      have answered : outcome.answer = .ok () := succeeded _ (List.find?_cons_of_pos acts)
      rw [← bounded.fixed]
      exact changes.bounded acts answered
    | false =>
      have earlier : latest (outcome.entry queue call :: entries) = latest entries :=
        List.find?_cons_of_neg (Bool.eq_false_iff.mp acts)
      rw [earlier] at succeeded
      rw [changes.idle acts]
      exact bounded.room succeeded
  · rw [changes.flushes, bounded.flushes, List.countP_cons, bounded.fixed, bounded.sound.counted]
    rfl

theorem History.bounded (history : History limit entries queue) : Bounded limit entries queue := by
  induction history with
  | new => exact new_bounded limit
  | call history called ih => exact ih.call called

theorem History.run {last : Queue} {after : Service} {calls : List Call} {later : List Entry}
    (history : History limit entries queue)
    (ran : queue.run service calls = some (later, last, after)) :
    History limit (later.reverse ++ entries) last := by
  induction calls generalizing queue service entries later with
  | nil =>
    cases ran
    exact history
  | cons call rest ih =>
    simp only [Queue.run, Option.bind_eq_bind, Option.bind_eq_some_iff, Option.pure_def] at ran
    obtain ⟨outcome, called, ⟨others, last, final⟩, ran, same⟩ := ran
    cases same
    rw [List.reverse_cons, List.append_assoc, List.singleton_append]
    exact ih (history.call called) ran

/-- With a pool of its own a queue answers every sequence of calls. Whatever becomes of calls, only
batches that may wait are in the queue, their operations and its flushes are counted, and if
it is full, the latest call that should have made room has failed. -/
theorem full_only_after_failure (limit : Nat) :
    (∀ (servers : List String) (capacity : Nat) (store : DocumentStore) (calls : List Call),
      ∃ entries last after,
        (new limit).run ⟨.new (Servers.new servers) capacity, store⟩ calls =
          some (entries, last, after) ∧
        entries.map Entry.call = calls ∧ History limit entries.reverse last) ∧
    ∀ (entries : List Entry) (queue : Queue), History limit entries queue →
      Bounded limit entries queue ∧
      (queue.pending ≠ 0 → limit ≤ queue.pending →
        ∃ entry error, latest entries = some entry ∧ entry.answer = .error error) := by
  constructor
  · intro servers capacity store calls
    let service : Service := ⟨.new (Servers.new servers) capacity, store⟩
    have accounts : service.pool.Accounts 0 := Pool.new_accounts servers capacity
    have room : 0 < service.pool.limit := by
      change 0 < max capacity 1
      omega
    obtain ⟨entries, last, after, ran, same, -⟩ := run_delivers (new limit) accounts room calls
    have history := History.new.run ran
    rw [List.append_nil] at history
    exact ⟨entries, last, after, ran, same, history⟩
  · intro entries queue history
    exact ⟨history.bounded, history.bounded.exists_failure⟩

def mixedCalls : List Call :=
  let store := Store.standard "s"
  let urgent : Store := ⟨"s", Template.posix.semantics.set (.persistency .immediate)⟩
  [.submit (.create store ⟨0⟩ "a"), .submit (.create store ⟨1⟩ "b"), .submit ⟨store.semantics, []⟩,
    .submit (.delete urgent "a"), .flush]

/-- Over a store with a table that cannot be opened nothing is written, and the queue stays full. -/
theorem full_only_after_failure_foreign :
    ∃ entries queue, History 2 entries queue ∧ entries.map Entry.call = mixedCalls.reverse ∧
      queue.pending = 2 ∧ queue.flushes = 2 ∧
      ∃ entry error, latest entries = some entry ∧ entry.answer = .error error := by
  obtain ⟨answers, keeps⟩ := full_only_after_failure 2
  obtain ⟨entries, last, after, ran, same, history⟩ :=
    answers ["m"] 1 (.withForeignTable .empty "s.collections") mixedCalls
  have counts : (((new 2).run ⟨.new (Servers.new ["m"]) 1,
      .withForeignTable .empty "s.collections"⟩ mixedCalls).map
        fun reached => (reached.2.1.pending, reached.2.1.flushes)) = some (2, 2) := by
    decide +kernel
  rw [ran, Option.map_some, Option.some.injEq, Prod.mk.injEq] at counts
  obtain ⟨pending, flushes⟩ := counts
  refine ⟨entries.reverse, last, history, ?_, pending, flushes, ?_⟩
  · rw [List.map_reverse, same]
  · apply (keeps entries.reverse last history).2
    · rw [pending]
      decide
    · rw [pending]

end Queue
end MetadataClient
