import MetadataClient.Proofs.Client.Listing
import Mathlib.Data.List.ReduceOption

/-! Sessions one after the other over the same storage. A client that goes writes what it held
back, so a session begins with all that was submitted in the sessions before it; without a
persistent backend every session begins with nothing. -/
namespace MetadataClient
namespace Client

def Call.submitted : Call → List Operation
  | .submit batch => batch.operations
  | .flush | .list _ | .next _ | .get _ | .free _ => []

def InUse.freeAll (inUse : InUse) : Client :=
  inUse.listings.reduceOption.foldl free inUse.client

/-- A client is used, its listings are given up, and it goes. What is left is the store, and what
the uses answered. -/
def visit (client : Client) (calls : List Call) : Option (DocumentStore × List Answer) := do
  let (inUse, answers) ← InUse.run ⟨client, []⟩ calls
  let (store, _) ← inUse.freeAll.close
  return (store, answers)

/-- Sessions over the storage of a configuration, each with a new client, unless a use has to wait
for a connection. -/
def sessions (config : Config) (kept : DocumentStore) :
    List (List Call) → Option (DocumentStore × List (Except Error (List Answer)))
  | [] => some (kept, [])
  | calls :: later =>
    match ofConfig config kept with
    | .error error => do
      let (last, answers) ← sessions config kept later
      return (last, .error error :: answers)
    | .ok client => do
      let (store, answers) ← client.visit calls
      let (last, rest) ←
        sessions config (if config.backend.isPersistent then store else kept) later
      return (last, .ok answers :: rest)

end Client

namespace Catalog

open Client (Call Answer)

/-- What sessions answer. Each begins with all that was submitted in the sessions before it, if
anything is kept from one session to the next. -/
def replay (persistent : Bool) (earlier : List Operation) : List (List Call) → List (List Answer)
  | [] => []
  | calls :: later =>
    (InUse.run ⟨empty.after earlier, []⟩ calls).2 ::
      replay persistent (if persistent then earlier ++ calls.flatMap Call.submitted else earlier)
        later

theorem after_append (catalog : Catalog) (first second : List Operation) :
    catalog.after (first ++ second) = (catalog.after first).after second :=
  List.foldl_append

theorem InUse.call_catalog (inUse : InUse) (call : Call) :
    (inUse.call call).1.catalog = inUse.catalog.after call.submitted := by
  cases call with
  | submit batch => rfl
  | flush => rfl
  | list store => rfl
  | next position =>
    rw [call]
    split <;> rfl
  | get position =>
    rw [call]
    split <;> rfl
  | free position =>
    rw [call]
    split <;> rfl

theorem InUse.run_catalog (inUse : InUse) (calls : List Call) :
    (inUse.run calls).1.catalog = inUse.catalog.after (calls.flatMap Call.submitted) := by
  induction calls generalizing inUse with
  | nil => rfl
  | cons call calls ih =>
    rw [run, List.flatMap_cons, after_append, ← call_catalog]
    exact ih (inUse.call call).1

end Catalog

namespace Client

variable {inUse after : InUse} {reference : Catalog.InUse} {limit : Nat}

/-! ## Uses that do not wait -/

theorem InUse.Follows.alive_le (follows : inUse.Follows reference limit) :
    reference.alive ≤ limit := by
  obtain ⟨⟨contents, lists, written, serves, -⟩, -⟩ := follows
  rw [← serves.limited]
  exact Pool.lent_le_limit serves.accounts

/-- All connections are lent to listings. -/
theorem InUse.Follows.full (follows : inUse.Follows reference limit)
    (all : reference.alive = limit) :
    (inUse.client.service.pool.acquire metadataIndex).1 = .waiting := by
  obtain ⟨⟨contents, lists, written, serves, -⟩, -⟩ := follows
  have accounts := serves.accounts
  rw [all, ← serves.limited] at accounts
  rw [Pool.acquire_waiting accounts]

/-- A use that returns although all connections are lent wrote nothing. -/
theorem call_full (follows : inUse.Follows reference limit) (all : reference.alive = limit)
    {call : Call} (shallow : call.Shallow) (connects : call.Connects) {answer : Answer}
    (called : inUse.call call = some (after, answer)) :
    answer = (reference.call call).2 ∧ after.Follows (reference.call call).1 limit := by
  have full := follows.full all
  cases call with
  | submit batch =>
    obtain ⟨⟨contents, lists, promises⟩, length, each⟩ := follows
    obtain ⟨result, queued, told⟩ := Option.map_eq_some_iff.mp called
    obtain ⟨outcome, submitted, rfl⟩ := Option.map_eq_some_iff.mp queued
    obtain ⟨done, same, waiting⟩ := Queue.submit_waiting full submitted
    have promised := Queue.promises_append promises waiting shallow
    cases told
    refine ⟨congrArg Answer.done done, ⟨_, Contents.operate_lists lists _, ?_⟩, length, each⟩
    rw [ofQueueOutcome, same]
    exact promised
  | flush =>
    obtain ⟨⟨contents, lists, promises⟩, length, each⟩ := follows
    obtain ⟨result, queued, told⟩ := Option.map_eq_some_iff.mp called
    obtain ⟨outcome, flushed, rfl⟩ := Option.map_eq_some_iff.mp queued
    obtain ⟨done, same, waiting⟩ := Queue.flush_waiting full flushed
    have promised := Queue.promises_append promises
      (waiting.trans (List.append_nil _).symm) (List.forall_mem_nil _)
    cases told
    refine ⟨congrArg Answer.done done, ⟨contents, lists, ?_⟩, length, each⟩
    rw [ofQueueOutcome, same]
    exact promised
  | list store =>
    obtain ⟨result, listed, -⟩ := Option.map_eq_some_iff.mp called
    obtain ⟨flushed, done, opened⟩ := Option.bind_eq_some_iff.mp listed
    obtain ⟨outcome, queued, rfl⟩ := Option.map_eq_some_iff.mp done
    obtain ⟨answer, same, -⟩ := Queue.flush_waiting full queued
    -- Nothing had to be written, but the listing itself needs a connection.
    have waits : (ofQueueOutcome outcome).client.listAfter (ofQueueOutcome outcome).answer store =
        none := by
      simp only [ofQueueOutcome, answer, listAfter, openListing, withConnection, same]
      generalize inUse.client.service.pool.acquire metadataIndex = request at full ⊢
      obtain ⟨reply, pool⟩ := request
      cases full
      rfl
    rw [waits] at opened
    cases opened
  | next position => exact connects.elim
  | get position => exact connects.elim
  | free position => exact connects.elim

theorem call_returned (follows : inUse.Follows reference limit) {call : Call}
    (shallow : call.Shallow) {answer : Answer} (called : inUse.call call = some (after, answer)) :
    answer = (reference.call call).2 ∧ after.Follows (reference.call call).1 limit := by
  by_cases room : call.Connects → reference.alive < limit
  · obtain ⟨next, answered, follows⟩ := call_follows follows shallow room
    rw [answered] at called
    cases called
    exact ⟨rfl, follows⟩
  · obtain ⟨connects, full⟩ := Classical.not_imp.mp room
    have all : reference.alive = limit := Nat.le_antisymm follows.alive_le (Nat.le_of_not_lt full)
    exact call_full follows all shallow connects called

theorem run_returned (follows : inUse.Follows reference limit) {calls : List Call}
    (shallow : ∀ call ∈ calls, call.Shallow) {answers : List Answer}
    (ran : inUse.run calls = some (after, answers)) :
    answers = (reference.run calls).2 ∧ after.Follows (reference.run calls).1 limit := by
  induction calls generalizing inUse reference answers with
  | nil =>
    cases ran
    exact ⟨rfl, follows⟩
  | cons call rest ih =>
    obtain ⟨first, later⟩ := List.forall_mem_cons.mp shallow
    obtain ⟨⟨next, answer⟩, called, continued⟩ := Option.bind_eq_some_iff.mp ran
    obtain ⟨⟨last, others⟩, finished, told⟩ := Option.bind_eq_some_iff.mp continued
    cases told
    obtain ⟨rfl, between⟩ := call_returned follows first called
    obtain ⟨rfl, follows⟩ := ih between later finished
    exact ⟨rfl, follows⟩

/-! ## The end of a session -/

/-- Each listing that is given up gives its connection back. -/
theorem foldl_free_serves {client : Client} {contents : Contents} {lent : Nat}
    {listings : List Listing} (lenders : ∀ listing ∈ listings, listing.loan.index = metadataIndex)
    (serves : Queue.Serves client.service contents limit (lent + listings.length)) :
    (listings.foldl free client).queue = client.queue ∧
      Queue.Serves (listings.foldl free client).service contents limit lent := by
  induction listings generalizing client with
  | nil => exact ⟨rfl, serves⟩
  | cons listing listings ih =>
    obtain ⟨first, later⟩ := List.forall_mem_cons.mp lenders
    obtain ⟨represents, accounts, limited⟩ := serves
    have released : Queue.Serves (client.free listing).service contents limit
        (lent + listings.length) := ⟨represents, Pool.release_accounts accounts first, limited⟩
    exact ih later released

theorem InUse.Follows.listings (follows : inUse.Follows reference limit) :
    inUse.listings.reduceOption.length = reference.alive ∧
      ∀ listing ∈ inUse.listings.reduceOption, listing.loan.index = metadataIndex := by
  constructor
  · rw [List.reduceOption_length_eq, ← List.countP_eq_length_filter]
    exact countP_of_rel follows.length follows.each
  · intro listing member
    obtain ⟨position, here⟩ := List.mem_iff_getElem?.mp (List.reduceOption_mem_iff.mp member)
    have found : inUse.listing? position = some listing := by
      rw [InUse.listing?, here]
      rfl
    rcases follows.position position with ⟨absent, -⟩ | ⟨other, reading, there, -, same⟩
    · rw [found] at absent
      cases absent
    · rw [found] at there
      cases there
      exact same.lender

theorem close_represents (follows : inUse.Follows reference limit) (positive : 0 < limit) :
    ∃ store warnings contents, inUse.freeAll.close = some (store, warnings) ∧
      store.Represents contents ∧ contents.Lists reference.catalog := by
  obtain ⟨counted, lenders⟩ := follows.listings
  obtain ⟨⟨contents, lists, written, serves, complete, waiting⟩, -⟩ := follows
  rw [← counted, ← Nat.zero_add inUse.listings.reduceOption.length] at serves
  obtain ⟨queue, serves⟩ := foldl_free_serves lenders serves
  have promises : inUse.freeAll.queue.Promises inUse.freeAll.service contents limit 0 := by
    rw [InUse.freeAll, queue]
    exact ⟨written, serves, complete, waiting⟩
  obtain ⟨outcome, flushed, answer, -, serves⟩ := Queue.flush_serves promises positive
  refine ⟨outcome.service.store, outcome.warnings, contents, ?_, serves.represents, lists⟩
  simp only [close, flush, flushed, Option.map_some, ofQueueOutcome, answer]

/-! ## Sessions -/

section Sessions

variable {config : Config} {kept store : DocumentStore} {earlier : List Operation}
  {calls : List Call} {answers : List Answer}

/-- The store that a session begins on. -/
def beginning (config : Config) (kept : DocumentStore) : DocumentStore :=
  if config.backend.isPersistent then kept else .empty

def Begins (config : Config) (kept : DocumentStore) (earlier : List Operation) : Prop :=
  ∃ contents, (beginning config kept).Represents contents ∧
    contents.Lists (Catalog.empty.after earlier)

theorem begins_empty : Begins config .empty [] := by
  refine ⟨.empty, ?_, Contents.empty_lists⟩
  rw [beginning, ite_self]
  exact DocumentStore.empty_represents

theorem ofConfig_of_valid (valid : config.validate = .ok ()) :
    ofConfig config kept = .ok (overStore config (beginning config kept)) := by
  rw [ofConfig, valid]
  rfl

theorem begins_follows (begins : Begins config kept earlier) :
    InUse.Follows ⟨overStore config (beginning config kept), []⟩
      ⟨Catalog.empty.after earlier, []⟩ usualPoolLimit := by
  obtain ⟨contents, represents, lists⟩ := begins
  exact start_follows config.metadata usualQueueLimit usualPoolLimit represents lists

/-- A session answers what is replayed, and the next one begins with what was submitted, too. -/
theorem visit_begins (begins : Begins config kept earlier)
    (shallow : ∀ call ∈ calls, call.Shallow)
    (visited : (overStore config (beginning config kept)).visit calls = some (store, answers)) :
    answers = (Catalog.InUse.run ⟨Catalog.empty.after earlier, []⟩ calls).2 ∧
      Begins config (if config.backend.isPersistent then store else kept)
        (if config.backend.isPersistent then earlier ++ calls.flatMap Call.submitted
          else earlier) := by
  obtain ⟨⟨inUse, told⟩, ran, ended⟩ := Option.bind_eq_some_iff.mp visited
  obtain ⟨⟨closed, warnings⟩, close, same⟩ := Option.bind_eq_some_iff.mp ended
  cases same
  obtain ⟨rfl, follows⟩ := run_returned (begins_follows begins) shallow ran
  refine ⟨rfl, ?_⟩
  by_cases persistent : config.backend.isPersistent
  · obtain ⟨left, lost, contents, gone, represents, lists⟩ := close_represents follows (by decide)
    rw [close] at gone
    cases gone
    rw [if_pos persistent, if_pos persistent]
    refine ⟨contents, ?_, ?_⟩
    · rw [beginning, if_pos persistent]
      exact represents
    · rw [Catalog.after_append]
      rwa [Catalog.InUse.run_catalog] at lists
  · -- The store of the session is gone, and the storage is as it was.
    rw [if_neg persistent, if_neg persistent]
    exact begins

/-- A session comes to its end if it always has a connection left. -/
theorem visit_returns (begins : Begins config kept earlier)
    (shallow : ∀ call ∈ calls, call.Shallow)
    (fits : Catalog.InUse.Fits usualPoolLimit ⟨Catalog.empty.after earlier, []⟩ calls) :
    ∃ store answers,
      (overStore config (beginning config kept)).visit calls = some (store, answers) := by
  obtain ⟨inUse, ran, follows⟩ := run_follows (begins_follows begins) shallow fits
  obtain ⟨store, warnings, -, closed, -⟩ := close_represents follows (by decide)
  refine ⟨store, (Catalog.InUse.run ⟨Catalog.empty.after earlier, []⟩ calls).2, ?_⟩
  rw [visit, ran]
  simp only [Option.bind_eq_bind, Option.bind_some, closed]
  rfl

variable {visits : List (List Call)} {last : DocumentStore}

theorem sessions_returned (valid : config.validate = .ok ()) (begins : Begins config kept earlier)
    (shallow : ∀ calls ∈ visits, ∀ call ∈ calls, call.Shallow)
    {told : List (Except Error (List Answer))}
    (ran : sessions config kept visits = some (last, told)) :
    told = (Catalog.replay config.backend.isPersistent earlier visits).map .ok := by
  induction visits generalizing kept earlier told with
  | nil =>
    cases ran
    rfl
  | cons calls visits ih =>
    obtain ⟨first, later⟩ := List.forall_mem_cons.mp shallow
    rw [sessions, ofConfig_of_valid valid] at ran
    obtain ⟨⟨store, answers⟩, visited, continued⟩ := Option.bind_eq_some_iff.mp ran
    obtain ⟨⟨last, others⟩, finished, same⟩ := Option.bind_eq_some_iff.mp continued
    cases same
    obtain ⟨rfl, begins⟩ := visit_begins begins first visited
    rw [ih begins later finished, Catalog.replay, List.map_cons]

theorem sessions_return (valid : config.validate = .ok ()) (begins : Begins config kept earlier)
    (shallow : ∀ calls ∈ visits, ∀ call ∈ calls, call.Shallow)
    (fits : ∀ calls ∈ visits, ∀ catalog, Catalog.InUse.Fits usualPoolLimit ⟨catalog, []⟩ calls) :
    ∃ last told, sessions config kept visits = some (last, told) := by
  induction visits generalizing kept earlier with
  | nil => exact ⟨kept, [], rfl⟩
  | cons calls visits ih =>
    obtain ⟨first, later⟩ := List.forall_mem_cons.mp shallow
    obtain ⟨room, rooms⟩ := List.forall_mem_cons.mp fits
    obtain ⟨store, answers, visited⟩ := visit_returns begins first (room _)
    obtain ⟨-, begins⟩ := visit_begins begins first visited
    obtain ⟨last, told, finished⟩ := ih begins later rooms
    refine ⟨last, .ok answers :: told, ?_⟩
    rw [sessions, ofConfig_of_valid valid]
    simp only [Option.bind_eq_bind, visited, Option.bind_some, finished]
    rfl

end Sessions

/-- Nothing is lost between sessions. Every use in every session answers what it answers over a
catalog of all that was submitted before, in the sessions before it, if the backend is
persistent, and in its own session, in order and no matter what was held back: each listing
meets the collections of the documents in the catalog, one after the other and each once. No
session fails to begin or to end; a use waits only if all connections are lent to listings. -/
theorem sessions_replay {config : Config} (valid : config.validate = .ok ())
    {visits : List (List Call)} (shallow : ∀ calls ∈ visits, ∀ call ∈ calls, call.Shallow) :
    (∀ last told, sessions config .empty visits = some (last, told) →
      told = (Catalog.replay config.backend.isPersistent [] visits).map .ok) ∧
    ((∀ calls ∈ visits, ∀ catalog, Catalog.InUse.Fits usualPoolLimit ⟨catalog, []⟩ calls) →
      ∃ last told, sessions config .empty visits = some (last, told)) ∧
    (∀ (earlier : List Operation) (calls : List Call),
      (Catalog.InUse.run ⟨Catalog.empty.after earlier, []⟩ calls).1.catalog =
        Catalog.empty.after (earlier ++ calls.flatMap Call.submitted)) ∧
    ∀ (reading : Reading) (count : Nat),
      (reading.after count).next.1 = decide (count < reading.ahead.length) ∧
      (reading.after (count + 1)).get = match reading.ahead[count]? with
        | some document => Collection.ofDocument reading.store document
        | none => .error .noCurrentEntry := by
  refine ⟨?_, sessions_return valid begins_empty shallow, ?_, Reading.after_meets⟩
  · intro last told ran
    exact sessions_returned valid begins_empty shallow ran
  · intro earlier calls
    rw [Catalog.InUse.run_catalog, Catalog.after_append]

def heldBack : List (List Call) :=
  [[.submit (.create (.standard "s") ⟨0⟩ "a")],
    [.submit (.create (.standard "s") ⟨1⟩ "b"), .list (.standard "s"), .next 0, .get 0]]

/-- The collection is listed in the next session, ahead of what is submitted there. -/
theorem sessions_replay_held : ∃ last, sessions ⟨["d"], ["m"], .posix, "/p"⟩ .empty heldBack =
    some (last, [.ok [.done (.ok ())], .ok [.done (.ok ()), .done (.ok ()), .found true,
      .collection (.ok ⟨⟨0⟩, "a", .standard "s"⟩)]]) := by
  have shallow : ∀ calls ∈ heldBack, ∀ call ∈ calls, call.Shallow := by
    simp only [heldBack, List.forall_mem_cons, Call.Shallow, Batch.create, Operation.Shallow,
      Operation.write, Write.Shallow, List.not_mem_nil, false_imp_iff, implies_true, and_true]
    decide +kernel
  have fits : ∀ calls ∈ heldBack, ∀ catalog,
      Catalog.InUse.Fits usualPoolLimit ⟨catalog, []⟩ calls := by
    simp only [heldBack, List.forall_mem_cons, List.not_mem_nil, false_imp_iff, implies_true,
      and_true]
    constructor
    · intro catalog
      exact ⟨fun _ => Nat.zero_lt_succ 7, trivial⟩
    · intro catalog
      exact ⟨fun _ => Nat.zero_lt_succ 7, fun _ => Nat.zero_lt_succ 7, False.elim, False.elim,
        trivial⟩
  obtain ⟨answered, returns, -⟩ :=
    sessions_replay (show Config.validate ⟨["d"], ["m"], .posix, "/p"⟩ = .ok () from rfl) shallow
  obtain ⟨last, told, ran⟩ := returns fits
  refine ⟨last, ran.trans (congrArg (fun told => some (last, told)) ?_)⟩
  exact (answered last told ran).trans rfl

end Client
end MetadataClient
