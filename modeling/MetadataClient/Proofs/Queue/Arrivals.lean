import MetadataClient.Proofs.Queue.Borrowing

/-! Batches that arrive during a drain. Only one drain goes on at a time, but it has the queue
to itself only while it takes the batches out and while it puts back what was not written. In
between others put batches in, at any point and as many as they like. -/
namespace MetadataClient
namespace Queue

/-- How far a drain has come. The batches are taken out before there is a connection. Over this
so many of them, and then of the immediate one, are written. Where that fails, what is left
is still to be put back, and the connection to be given back. -/
inductive Stage
  | idle
  | taken (batches : List Batch) (immediate : Option Batch)
  | writing (loan : Loan Connection) (taken : List Batch) (immediate : Option Batch)
      (position : Nat)
  | stopped (loan : Option (Loan Connection)) (left : List Batch) (error : Error)

structure Scene where
  queue : Queue
  service : Service
  stage : Stage

/-- What can be told of a step: what arrives is a batch that may wait, and what is committed are
transactions of one batch, which was taken from the queue or is the immediate one. -/
inductive Event
  | arrive (batch : Batch)
  | start (immediate : Option Batch)
  | commit (queued : Bool) (transactions : List (List Operation))
  | finish (answer : Except Error Unit)

/-- A flush is counted before it begins. -/
def counting (queue : Queue) : Option Batch → Queue
  | none => { queue with flushes := queue.flushes + 1 }
  | some _ => queue

def Urgent (immediate : Option Batch) : Prop :=
  ∀ batch, immediate = some batch →
    batch.isEmpty = false ∧ batch.semantics.persistency.isDeferrable = false

theorem urgent_none : Urgent none := nofun

/-- The steps of one who drains the queue, of those who put batches in and of those who use
the pool for something else. -/
inductive Step : Scene → Option Event → Scene → Prop
  | arrive {queue : Queue} {service : Service} {stage : Stage} {batch : Batch}
      (filled : batch.isEmpty = false)
      (waits : batch.semantics.persistency.isDeferrable = true) :
      Step ⟨queue, service, stage⟩ (some (.arrive batch)) ⟨queue.enqueue batch, service, stage⟩
  | elsewhere {queue : Queue} {pool other : MetadataPool} {store : DocumentStore} {stage : Stage} :
      Step ⟨queue, ⟨pool, store⟩, stage⟩ none ⟨queue, ⟨other, store⟩, stage⟩
  | start {queue : Queue} {service : Service} {immediate : Option Batch}
      (urgent : Urgent immediate) :
      Step ⟨queue, service, .idle⟩ (some (.start immediate))
        ⟨(queue.counting immediate).take.2, service,
          .taken (queue.counting immediate).take.1 immediate⟩
  | nothing {queue : Queue} {service : Service} {taken : List Batch} {immediate : Option Batch}
      (empty : taken ++ immediate.toList = []) :
      Step ⟨queue, service, .taken taken immediate⟩ (some (.finish (.ok ())))
        ⟨queue, service, .idle⟩
  | connect {queue : Queue} {pool after : MetadataPool} {store : DocumentStore}
      {taken : List Batch} {immediate : Option Batch} {loan : Loan Connection}
      (filled : taken ++ immediate.toList ≠ [])
      (granted : pool.acquire metadataIndex = (.granted loan, after)) :
      Step ⟨queue, ⟨pool, store⟩, .taken taken immediate⟩ none
        ⟨queue, ⟨after, store⟩, .writing loan taken immediate 0⟩
  | refuse {queue : Queue} {pool after : MetadataPool} {store : DocumentStore}
      {taken : List Batch} {immediate : Option Batch} {reply : Reply Connection} {error : Error}
      (filled : taken ++ immediate.toList ≠ [])
      (acquired : pool.acquire metadataIndex = (reply, after))
      (failed : reply.error? = some error) :
      Step ⟨queue, ⟨pool, store⟩, .taken taken immediate⟩ none
        ⟨queue, ⟨after, store⟩, .stopped none taken error⟩
  | write {queue : Queue} {pool : MetadataPool} {store : DocumentStore} {taken : List Batch}
      {immediate : Option Batch} {loan : Loan Connection} {position : Nat} {batch : Batch}
      (next : (taken ++ immediate.toList)[position]? = some batch)
      (done : (batch.execute store).failure = none) :
      Step ⟨queue, ⟨pool, store⟩, .writing loan taken immediate position⟩
        (some (.commit (position < taken.length) (batch.execute store).committed))
        ⟨queue, ⟨pool, (batch.execute store).store⟩, .writing loan taken immediate (position + 1)⟩
  | fail {queue : Queue} {pool : MetadataPool} {store : DocumentStore} {taken : List Batch}
      {immediate : Option Batch} {loan : Loan Connection} {position : Nat} {batch : Batch}
      {error : StoreError} (next : (taken ++ immediate.toList)[position]? = some batch)
      (failed : (batch.execute store).failure = some error) :
      Step ⟨queue, ⟨pool, store⟩, .writing loan taken immediate position⟩
        (some (.commit (position < taken.length) (batch.execute store).committed))
        ⟨queue, ⟨pool, (batch.execute store).store⟩,
          .stopped loan (unwritten taken ⟨position, (batch.execute store).applied, error⟩)
            error.toError⟩
  | finish {queue : Queue} {pool : MetadataPool} {store : DocumentStore} {taken : List Batch}
      {immediate : Option Batch} {loan : Loan Connection} {position : Nat}
      (last : (taken ++ immediate.toList).length ≤ position) :
      Step ⟨queue, ⟨pool, store⟩, .writing loan taken immediate position⟩
        (some (.finish (.ok ()))) ⟨queue, ⟨pool.release loan, store⟩, .idle⟩
  | restore {queue : Queue} {pool : MetadataPool} {store : DocumentStore}
      {loan : Option (Loan Connection)} {left : List Batch} {error : Error} :
      Step ⟨queue, ⟨pool, store⟩, .stopped loan left error⟩ (some (.finish (.error error)))
        ⟨queue.requeue left, ⟨loan.elim pool pool.release, store⟩, .idle⟩

inductive Reaches : Scene → List Event → Scene → Prop
  | refl (scene : Scene) : Reaches scene [] scene
  | next {first scene after : Scene} {events : List Event} {event : Option Event}
      (run : Reaches first events scene) (step : Step scene event after) :
      Reaches first (events ++ event.toList) after

namespace Event

/-- The batch that is put into the queue. -/
def arrivals : Event → List Batch
  | arrive batch => [batch]
  | _ => []

def transactions : Event → List (List Operation)
  | commit _ transactions => transactions
  | _ => []

/-- What is written of a batch that had been put into the queue. -/
def written : Event → List Operation
  | commit true transactions => transactions.flatten
  | _ => []

end Event

/-- The operations of batches that were taken from the queue and are not yet written. -/
def Stage.underway : Stage → List Operation
  | .idle => []
  | .taken batches _ => batches.flatMap Batch.operations
  | .writing _ batches _ position => (batches.drop position).flatMap Batch.operations
  | .stopped _ left _ => left.flatMap Batch.operations

/-! ## What a step keeps -/

variable {scene after : Scene} {event : Option Event}

theorem next_cases {taken others : List Batch} {position : Nat} {batch : Batch}
    (next : (taken ++ others)[position]? = some batch) :
    (position < taken.length ∧ taken.drop position = batch :: taken.drop (position + 1)) ∨
      (¬position < taken.length ∧ taken.drop position = []) := by
  by_cases within : position < taken.length
  · left
    rw [List.getElem?_append_left within, List.getElem?_eq_getElem within] at next
    refine ⟨within, ?_⟩
    rw [List.drop_eq_getElem_cons within, Option.some.inj next]
  · right
    exact ⟨within, List.drop_eq_nil_of_le (Nat.le_of_not_lt within)⟩

theorem written_unwritten {taken others : List Batch} {position applied : Nat} {batch : Batch}
    (next : (taken ++ others)[position]? = some batch) {committed : List (List Operation)}
    (written : committed.flatten = batch.operations.take applied) (error : StoreError) :
    Event.written (.commit (position < taken.length) committed) ++
        (unwritten taken ⟨position, applied, error⟩).flatMap Batch.operations =
      (taken.drop position).flatMap Batch.operations := by
  rw [unwritten]
  rcases next_cases next with ⟨within, rest⟩ | ⟨behind, rest⟩
  · have cut : batch.operations.take applied ++ (batch.skip applied).operations =
        batch.operations := List.take_append_drop ..
    simp only [Event.written, within, decide_true, written, rest, List.flatMap_cons]
    rw [← List.append_assoc, cut]
  · simp only [Event.written, behind, decide_false, rest, List.flatMap_nil, List.append_nil]

theorem written_whole {taken others : List Batch} {position : Nat} {batch : Batch}
    (next : (taken ++ others)[position]? = some batch) {committed : List (List Operation)}
    (written : committed.flatten = batch.operations) :
    Event.written (.commit (position < taken.length) committed) ++
        (taken.drop (position + 1)).flatMap Batch.operations =
      (taken.drop position).flatMap Batch.operations := by
  rcases next_cases next with ⟨within, rest⟩ | ⟨behind, rest⟩
  · simp only [Event.written, within, decide_true, written, rest, List.flatMap_cons]
  · have none : taken.drop (position + 1) = [] := by
      rw [← List.tail_drop, rest, List.tail_nil]
    simp only [Event.written, behind, decide_false, rest, none, List.flatMap_nil, List.append_nil]

/-- All batches of the queue that were not written are still there or underway, in order. -/
theorem Step.balanced (step : Step scene event after) :
    event.toList.flatMap Event.written ++ after.stage.underway ++ after.queue.operations =
      scene.stage.underway ++ scene.queue.operations ++
        (event.toList.flatMap Event.arrivals).flatMap Batch.operations := by
  cases step with
  | arrive filled waits => simp [Event.written, Event.arrivals, operations_enqueue]
  | elsewhere => simp
  | @start queue service immediate urgent =>
    cases immediate <;>
      simp [Event.written, Event.arrivals, Stage.underway, counting, take, operations]
  | nothing empty =>
    obtain ⟨rfl, -⟩ := List.append_eq_nil_iff.mp empty
    simp [Event.written, Event.arrivals, Stage.underway]
  | connect filled granted => simp [Stage.underway]
  | refuse filled acquired failed => simp [Stage.underway]
  | @write queue pool store taken immediate loan position batch next done =>
    have delivers := batch.execute_delivers store
    have written : (batch.execute store).committed.flatten = batch.operations := by
      rw [delivers.written, delivers.complete done, List.take_length]
    simp only [Option.toList_some, List.flatMap_singleton, Stage.underway,
      written_whole next written, Event.arrivals, List.flatMap_nil, List.append_nil]
  | @fail queue pool store taken immediate loan position batch error next failed =>
    have written := (batch.execute_delivers store).written
    simp only [Option.toList_some, List.flatMap_singleton, Stage.underway,
      written_unwritten next written, Event.arrivals, List.flatMap_nil, List.append_nil]
  | @finish queue pool store taken immediate loan position last =>
    have none : taken.drop position = [] := by
      rw [List.length_append] at last
      exact List.drop_eq_nil_of_le ((Nat.le_add_right ..).trans last)
    simp [Event.written, Event.arrivals, Stage.underway, none]
  | restore => simp [Event.written, Event.arrivals, Stage.underway, operations_requeue]

/-- The operations that wait are counted, also while a drain is underway. -/
theorem Step.counted (step : Step scene event after)
    (counted : scene.queue.pending = scene.queue.operations.length) :
    after.queue.pending = after.queue.operations.length := by
  cases step with
  | arrive filled waits =>
    rw [operations_enqueue, List.length_append, ← counted]
    rfl
  | start | restore => rfl
  | elsewhere | nothing | connect | refuse | write | fail | finish => exact counted

/-- The transactions of a step lead to the store behind it. -/
theorem Step.replayed (step : Step scene event after) :
    scene.service.store.replay (event.toList.flatMap Event.transactions) =
      .ok after.service.store := by
  cases step with
  | @write queue pool store taken immediate loan position batch next done =>
    rw [Option.toList_some, List.flatMap_singleton]
    exact (batch.execute_delivers store).replayed
  | @fail queue pool store taken immediate loan position batch error next failed =>
    rw [Option.toList_some, List.flatMap_singleton]
    exact (batch.execute_delivers store).replayed
  | arrive | elsewhere | start | nothing | connect | refuse | finish | restore => rfl

/-! ## Runs -/

variable {first : Scene} {events : List Event}

theorem Reaches.balanced (run : Reaches first events scene) :
    events.flatMap Event.written ++ scene.stage.underway ++ scene.queue.operations =
      first.stage.underway ++ first.queue.operations ++
        (events.flatMap Event.arrivals).flatMap Batch.operations := by
  induction run with
  | refl => simp
  | @next scene after events event run step ih =>
    have balanced := step.balanced
    calc (events ++ event.toList).flatMap Event.written ++ after.stage.underway ++
          after.queue.operations
        = events.flatMap Event.written ++ (event.toList.flatMap Event.written ++
            after.stage.underway ++ after.queue.operations) := by
          simp only [List.flatMap_append, List.append_assoc]
      _ = events.flatMap Event.written ++ scene.stage.underway ++ scene.queue.operations ++
            (event.toList.flatMap Event.arrivals).flatMap Batch.operations := by
          rw [balanced]
          simp only [List.append_assoc]
      _ = first.stage.underway ++ first.queue.operations ++
            ((events ++ event.toList).flatMap Event.arrivals).flatMap Batch.operations := by
          rw [ih]
          simp only [List.flatMap_append, List.append_assoc]

theorem Reaches.counted (run : Reaches first events scene)
    (counted : first.queue.pending = first.queue.operations.length) :
    scene.queue.pending = scene.queue.operations.length := by
  induction run with
  | refl => exact counted
  | next run step ih => exact step.counted ih

theorem Reaches.replayed (run : Reaches first events scene) :
    first.service.store.replay (events.flatMap Event.transactions) = .ok scene.service.store := by
  induction run with
  | refl => rfl
  | next run step ih =>
    rw [List.flatMap_append, DocumentStore.replay_append, ih]
    exact step.replayed

/-! ## A single drain -/

/-- What may be left of batches: the last of them, the first of these perhaps without its first
operations. -/
inductive Remains (batches : List Batch) : List Batch → Prop
  | nothing : Remains batches []
  | behind {before after : List Batch} {batch : Batch} (split : batches = before ++ batch :: after)
      (applied : Nat) : Remains batches (batch.skip applied :: after)

theorem remains_self (batches : List Batch) : Remains batches batches := by
  cases batches with
  | nil => exact .nothing
  | cons batch rest => exact .behind (List.nil_append _).symm 0

theorem remains_unwritten (batches : List Batch) (stop : Stop) :
    Remains batches (unwritten batches stop) := by
  rw [unwritten]
  split
  next => exact .nothing
  next batch rest left =>
    have split := List.take_append_drop stop.batch batches
    rw [left] at split
    exact .behind split.symm stop.applied

/-- What is known of a drain of these batches while others arrive. -/
def Holds (batches : List Batch) (events : List Event) (scene : Scene) : Prop :=
  match scene.stage with
  | .taken taken _ | .writing _ taken _ _ =>
    taken = batches ∧ scene.queue.batches = events.flatMap Event.arrivals
  | .stopped _ left _ =>
    Remains batches left ∧ scene.queue.batches = events.flatMap Event.arrivals
  | .idle => ∃ left answer, .finish answer ∈ events ∧ (answer = .ok () → left = []) ∧
    Remains batches left ∧ scene.queue.batches = left ++ events.flatMap Event.arrivals

theorem Holds.arrive {batches : List Batch} (holds : Holds batches events scene) (batch : Batch) :
    Holds batches (events ++ [Event.arrive batch])
      ⟨scene.queue.enqueue batch, scene.service, scene.stage⟩ := by
  have arrived : (events ++ [Event.arrive batch]).flatMap Event.arrivals =
      events.flatMap Event.arrivals ++ [batch] := by
    rw [List.flatMap_append, List.flatMap_singleton]
    rfl
  rw [Holds] at holds ⊢
  dsimp only
  rw [arrived]
  cases stage : scene.stage with
  | idle =>
    rw [stage] at holds
    obtain ⟨left, answer, told, emptied, part, same⟩ := holds
    refine ⟨left, answer, List.mem_append_left _ told, emptied, part, ?_⟩
    rw [← List.append_assoc, ← same]
    rfl
  | taken | writing | stopped =>
    rw [stage] at holds
    exact ⟨holds.1, congrArg (· ++ [batch]) holds.2⟩

theorem Holds.step {batches : List Batch} (holds : Holds batches events scene)
    (step : Step scene event after) (single : ∀ immediate, event ≠ some (.start immediate)) :
    Holds batches (events ++ event.toList) after := by
  have silent {told : Event} (none : told.arrivals = []) :
      (events ++ [told]).flatMap Event.arrivals = events.flatMap Event.arrivals := by
    rw [List.flatMap_append, List.flatMap_singleton, none, List.append_nil]
  cases step with
  | arrive filled waits => exact holds.arrive _
  | elsewhere => rwa [Option.toList_none, List.append_nil]
  | start urgent => exact absurd rfl (single _)
  | connect filled granted => rwa [Option.toList_none, List.append_nil]
  | refuse filled acquired failed =>
    obtain ⟨rfl, arrived⟩ := holds
    rw [Option.toList_none, List.append_nil]
    exact ⟨remains_self _, arrived⟩
  | write next done =>
    obtain ⟨rfl, arrived⟩ := holds
    exact ⟨rfl, arrived.trans (silent rfl).symm⟩
  | fail next failed =>
    obtain ⟨rfl, arrived⟩ := holds
    exact ⟨remains_unwritten .., arrived.trans (silent rfl).symm⟩
  | nothing | finish =>
    refine ⟨[], .ok (), List.mem_append_right _ List.mem_cons_self, fun _ => rfl, .nothing, ?_⟩
    exact holds.2.trans (silent rfl).symm
  | @restore queue pool store loan left error =>
    obtain ⟨part, arrived⟩ := holds
    refine ⟨left, .error error, List.mem_append_right _ List.mem_cons_self, nofun, part, ?_⟩
    rw [Option.toList_some, silent rfl, ← arrived]
    rfl

theorem Reaches.holds {batches : List Batch} (run : Reaches first events scene)
    (holds : Holds batches [] first) (single : ∀ immediate, .start immediate ∉ events) :
    Holds batches events scene := by
  induction run with
  | refl => exact holds
  | @next scene after events event run step ih =>
    have earlier : ∀ immediate, .start immediate ∉ events := fun immediate member =>
      single immediate (List.mem_append_left _ member)
    apply (ih earlier).step step
    rintro immediate rfl
    exact single immediate (List.mem_append_right _ List.mem_cons_self)

/-! ## Calls that nobody interrupts -/

variable {queue : Queue} {service : Service}

/-- Batches are written one after the other in the way of a drain that goes on alone. -/
theorem Reaches.execute {pool : MetadataPool} {store : DocumentStore} {loan : Loan Connection}
    {taken : List Batch} {immediate : Option Batch} {position : Nat} (rest : List Batch)
    (ahead : (taken ++ immediate.toList).drop position = rest)
    (run : Reaches first events ⟨queue, ⟨pool, store⟩, .writing loan taken immediate position⟩) :
    ∃ more, more.flatMap Event.arrivals = [] ∧
      more.flatMap Event.transactions = (Queue.execute store position rest).committed ∧
      match (Queue.execute store position rest).stop with
      | none => ∃ last, (taken ++ immediate.toList).length ≤ last ∧
          Reaches first (events ++ more) ⟨queue, ⟨pool, (Queue.execute store position rest).store⟩,
            .writing loan taken immediate last⟩
      | some stop => Reaches first (events ++ more) ⟨queue,
          ⟨pool, (Queue.execute store position rest).store⟩,
          .stopped loan (unwritten taken stop) stop.error.toError⟩ := by
  induction rest generalizing store position events with
  | nil =>
    refine ⟨[], rfl, rfl, position, List.drop_eq_nil_iff.mp ahead, ?_⟩
    rwa [List.append_nil]
  | cons batch rest ih =>
    have next : (taken ++ immediate.toList)[position]? = some batch := by
      rw [← List.head?_drop, ahead, List.head?_cons]
    have behind : (taken ++ immediate.toList).drop (position + 1) = rest := by
      rw [← List.tail_drop, ahead, List.tail_cons]
    rcases executed : batch.execute store with ⟨reached, committed, applied, failure⟩
    rw [Queue.execute, executed]
    cases failure with
    | none =>
      have wrote := run.next (.write next (congrArg Execution.failure executed))
      rw [executed] at wrote
      obtain ⟨more, silent, transactions, onward⟩ := ih behind wrote
      refine ⟨.commit (position < taken.length) committed :: more, silent, ?_, ?_⟩
      · exact congrArg (committed ++ ·) transactions
      · rw [Option.toList_some, List.append_assoc, List.singleton_append] at onward
        exact onward
    | some error =>
      have failed := run.next (.fail next (congrArg Execution.failure executed))
      rw [executed] at failed
      exact ⟨[.commit (position < taken.length) committed], rfl, List.append_nil _, failed⟩

theorem exists_error {reply : Reply Connection} (answered : reply ≠ .waiting)
    (none : reply.loan? = none) : ∃ error, reply.error? = some error := by
  cases reply with
  | waiting => exact absurd rfl answered
  | granted loan => cases none
  | refused | unreachable => exact ⟨_, rfl⟩

/-- A drain that goes on alone is the drain of the queue. -/
theorem drain_reaches {immediate : Option Batch} {outcome : Outcome}
    (urgent : Urgent immediate)
    (drained : (queue.counting immediate).drain service immediate = some outcome)
    (run : Reaches first events ⟨queue, service, .idle⟩) :
    ∃ more, more.flatMap Event.arrivals = [] ∧
      more.flatMap Event.transactions = outcome.committed ∧
      Reaches first (events ++ more) ⟨outcome.queue, outcome.service, .idle⟩ := by
  obtain ⟨pool, store⟩ := service
  have started := run.next (.start urgent)
  change (queue.counting immediate).take.2.write ⟨pool, store⟩
    (queue.counting immediate).take.1 immediate = some outcome at drained
  by_cases nothing : (queue.counting immediate).take.1 ++ immediate.toList = []
  · rw [write, if_pos (List.isEmpty_iff.mpr nothing)] at drained
    cases drained
    have ended := started.next (.nothing nothing)
    rw [List.append_assoc] at ended
    exact ⟨_, rfl, rfl, ended⟩
  · cases write_cases drained with
    | idle empty => exact absurd empty nothing
    | denied acquired answered none =>
      obtain ⟨error, failed⟩ := exists_error answered none
      have refused := started.next (.refuse nothing acquired failed)
      have ended := refused.next .restore
      rw [List.append_assoc, List.append_assoc] at ended
      exact ⟨_, rfl, rfl, ended⟩
    | done granted executed complete =>
      subst executed
      have connected := started.next (.connect nothing granted)
      obtain ⟨more, silent, transactions, onward⟩ := connected.execute _ rfl
      rw [List.drop_zero, complete] at onward
      obtain ⟨last, done, onward⟩ := onward
      have ended := onward.next (.finish done)
      simp only [List.append_assoc] at ended
      refine ⟨_, ?_, ?_, ended⟩
      · simp [silent, Event.arrivals]
      · simp [transactions, Event.transactions]
    | stopped granted executed stopped =>
      subst executed
      have connected := started.next (.connect nothing granted)
      obtain ⟨more, silent, transactions, onward⟩ := connected.execute _ rfl
      rw [List.drop_zero, stopped] at onward
      have ended := onward.next .restore
      simp only [List.append_assoc] at ended
      refine ⟨_, ?_, ?_, ended⟩
      · simp [silent, Event.arrivals]
      · simp [transactions, Event.transactions]

/-- The batches of a call that are put into the queue. -/
def Call.deferred : Call → List Batch
  | .submit batch =>
    if batch.isEmpty = false ∧ batch.semantics.persistency.isDeferrable = true then [batch] else []
  | .flush => []

/-- Whatever is done with the queue, it is done in steps. -/
theorem call_reaches {call : Call} {outcome : Outcome}
    (called : queue.call service call = some outcome) :
    ∃ events, Reaches ⟨queue, service, .idle⟩ events ⟨outcome.queue, outcome.service, .idle⟩ ∧
      events.flatMap Event.arrivals = call.deferred ∧
      events.flatMap Event.transactions = outcome.committed := by
  have start := Reaches.refl ⟨queue, service, .idle⟩
  cases call with
  | flush =>
    have flushed : (queue.counting none).drain service none = some outcome := called
    obtain ⟨events, silent, transactions, ended⟩ := drain_reaches urgent_none flushed start
    exact ⟨events, ended, silent, transactions⟩
  | submit batch =>
    rw [Queue.call, submit] at called
    rw [Call.deferred]
    split at called
    next empty =>
      cases called
      refine ⟨[], start, ?_, rfl⟩
      rw [empty, if_neg (by simp)]
      rfl
    next filled =>
      rw [Bool.not_eq_true] at filled
      split at called
      next waits =>
        have arrived := start.next (.arrive filled waits)
        rw [if_pos ⟨filled, waits⟩]
        dsimp only at called
        split at called
        next full =>
          have flushed : ((queue.enqueue batch).counting none).drain service none =
            some outcome := called
          obtain ⟨events, silent, transactions, ended⟩ := drain_reaches urgent_none flushed arrived
          refine ⟨_, ended, ?_, ?_⟩
          · rw [List.flatMap_append, silent]
            rfl
          · rw [List.flatMap_append, transactions]
            rfl
        next =>
          cases called
          exact ⟨_, arrived, rfl, rfl⟩
      next urgent =>
        rw [Bool.not_eq_true] at urgent
        have alone : Urgent (some batch) := by
          rintro other ⟨⟩
          exact ⟨filled, urgent⟩
        have drained : (queue.counting (some batch)).drain service (some batch) = some outcome :=
          called
        obtain ⟨events, silent, transactions, ended⟩ := drain_reaches alone drained start
        rw [urgent, if_neg (by simp)]
        exact ⟨events, ended, silent, transactions⟩

/-- Drains keep the order of the batches, whatever arrives meanwhile and wherever they fail. In any
run of a new queue the transactions lead to the store that is there, what was written of queued
batches, what is still underway and what waits are the operations of all batches that were
put into the queue, in the order of their arrival, and what waits is counted. When a drain is
over, those of the taken batches that were not written are back, in their order and in front of
those that arrived meanwhile. The calls of a queue that nobody interrupts are such runs. -/
theorem drains_keep_order :
    (∀ {limit : Nat} {service : Service} {events : List Event} {scene : Scene},
      Reaches ⟨new limit, service, .idle⟩ events scene →
      scene.queue.pending = scene.queue.operations.length ∧
      service.store.replay (events.flatMap Event.transactions) = .ok scene.service.store ∧
      events.flatMap Event.written ++ scene.stage.underway ++ scene.queue.operations =
        (events.flatMap Event.arrivals).flatMap Batch.operations) ∧
    (∀ {queue : Queue} {service : Service} {immediate : Option Batch} {started last : Scene}
        {events : List Event},
      Step ⟨queue, service, .idle⟩ (some (.start immediate)) started →
      Reaches started events last → (∀ other, .start other ∉ events) → last.stage = .idle →
      last.queue.pending = last.queue.operations.length ∧
      ∃ left answer, .finish answer ∈ events ∧ (answer = .ok () → left = []) ∧
        Remains queue.batches left ∧
        events.flatMap Event.written ++ left.flatMap Batch.operations = queue.operations ∧
        last.queue.batches = left ++ events.flatMap Event.arrivals) ∧
    ∀ {queue : Queue} {service : Service} {call : Call} {outcome : Outcome},
      queue.call service call = some outcome →
      ∃ events, Reaches ⟨queue, service, .idle⟩ events ⟨outcome.queue, outcome.service, .idle⟩ ∧
        events.flatMap Event.arrivals = call.deferred ∧
        events.flatMap Event.transactions = outcome.committed := by
  refine ⟨?_, ?_, call_reaches⟩
  · intro limit service events scene run
    exact ⟨run.counted rfl, run.replayed, run.balanced⟩
  · intro queue service immediate started last events start run single ended
    -- The queue is empty at the start, so in the end it has what came back and what arrived.
    have empty : started.queue.batches = [] ∧ started.queue.pending = 0 ∧
        started.stage.underway = queue.operations ∧ Holds queue.batches [] started := by
      cases start with
      | start urgent =>
        cases immediate <;> exact ⟨rfl, rfl, rfl, rfl, rfl⟩
    obtain ⟨none, zero, underway, holds⟩ := empty
    have nothing : started.queue.operations = [] := by rw [operations, none, List.flatMap_nil]
    have known := run.holds holds single
    rw [Holds, ended] at known
    obtain ⟨left, answer, told, emptied, part, same⟩ := known
    refine ⟨run.counted ?_, left, answer, told, emptied, part, ?_, same⟩
    · rw [zero, nothing]
      rfl
    · have balanced := run.balanced
      have idle : Stage.underway .idle = [] := rfl
      rw [ended, idle, underway, nothing, operations, same, List.flatMap_append, List.append_nil,
        List.append_nil, ← List.append_assoc] at balanced
      exact List.append_cancel_right balanced

def lazily (store : String) : Batch :=
  ⟨Template.standard.semantics, [.create store .empty]⟩

def halfOpen : DocumentStore :=
  .withForeignTable .empty (Store.listing "b")

/-- The second of two batches fails, one batch arrives before the connection is there and one
after the failure. The batch that failed comes back in front of them. -/
theorem drains_keep_order_contended : ∃ scene started last before events,
    Reaches ⟨new 9, ⟨.new (Servers.new ["m"]) 1, halfOpen⟩, .idle⟩ before scene ∧
    Step scene (some (.start none)) started ∧ Reaches started events last ∧
    last.stage = .idle ∧ last.queue.pending = 3 ∧
    last.queue.operations = [.create "b" .empty, .create "c" .empty, .create "d" .empty] := by
  have arrive (store : String) (queue : Queue) (service : Service) (stage : Stage) :
      Step ⟨queue, service, stage⟩ (some (.arrive (lazily store)))
        ⟨queue.enqueue (lazily store), service, stage⟩ := .arrive rfl rfl
  have first : ((lazily "a").execute halfOpen).failure = none := by decide +kernel
  have second : ((lazily "b").execute ((lazily "a").execute halfOpen).store).failure =
    some .table := by decide +kernel
  let service : Service := ⟨.new (Servers.new ["m"]) 1, halfOpen⟩
  let queue := ((new 9).enqueue (lazily "a")).enqueue (lazily "b")
  have waiting := ((Reaches.refl ⟨new 9, service, .idle⟩).next
    (arrive "a" ..)).next (arrive "b" ..)
  have started : Step ⟨queue, service, .idle⟩ (some (.start none))
    ⟨(queue.counting none).take.2, service, .taken queue.batches none⟩ := .start urgent_none
  have connected := ((Reaches.refl ⟨(queue.counting none).take.2, service,
    .taken [lazily "a", lazily "b"] none⟩).next (arrive "c" ..)).next (.connect (by simp) rfl)
  have failed := (connected.next (.write rfl first)).next (.fail rfl second)
  have ended := (failed.next (arrive "d" ..)).next .restore
  obtain ⟨-, drains, -⟩ := drains_keep_order
  obtain ⟨counted, left, answer, -, -, -, balanced, same⟩ :=
    drains started ended (by simp) rfl
  have whole : ((lazily "a").execute halfOpen).committed.flatten = (lazily "a").operations := by
    have delivers := (lazily "a").execute_delivers halfOpen
    rw [delivers.written, delivers.complete first, List.take_length]
  have nothing : ((lazily "b").execute ((lazily "a").execute halfOpen).store).committed.flatten =
      [] := by
    rw [((lazily "b").execute_delivers _).written]
    have applied : ((lazily "b").execute ((lazily "a").execute halfOpen).store).applied = 0 := by
      decide +kernel
    rw [applied, List.take_zero]
  have back : left.flatMap Batch.operations = (lazily "b").operations := by
    have split : ((lazily "a").execute halfOpen).committed.flatten ++ (((lazily "b").execute
        ((lazily "a").execute halfOpen).store).committed.flatten ++
          left.flatMap Batch.operations) = (lazily "a").operations ++ (lazily "b").operations := by
      have all : queue.operations = (lazily "a").operations ++ (lazily "b").operations := rfl
      rw [all] at balanced
      simpa [Event.written] using balanced
    rw [whole, nothing] at split
    exact List.append_cancel_left split
  refine ⟨_, _, _, _, _, waiting, started, ended, rfl, counted.trans ?_, ?_⟩
  · rw [operations, same, List.flatMap_append, back]
    rfl
  · rw [operations, same, List.flatMap_append, back]
    rfl

end Queue
end MetadataClient
