import MetadataClient.Client
import MetadataClient.Proofs.Client.Catalog

/-! Listing through a client. Every listing goes through what its store listed when it was
started, whatever is submitted, written, started or given up meanwhile. -/
namespace MetadataClient

/-- A listing as a plain list. -/
structure Reading where
  store : Store
  ahead : List Document
  current : Option Document

namespace Reading

def next (reading : Reading) : Bool × Reading :=
  match reading.ahead with
  | [] => (false, { reading with current := none })
  | document :: rest => (true, ⟨reading.store, rest, some document⟩)

def get (reading : Reading) : Except Error Collection :=
  match reading.current with
  | some document => Collection.ofDocument reading.store document
  | none => .error .noCurrentEntry

def after (reading : Reading) : Nat → Reading
  | 0 => reading
  | count + 1 => reading.next.2.after count

/-- Each document is met once and in order, and behind the last one there is nothing for
ever. -/
theorem after_meets (reading : Reading) (count : Nat) :
    (reading.after count).next.1 = decide (count < reading.ahead.length) ∧
      (reading.after (count + 1)).get = match reading.ahead[count]? with
        | some document => Collection.ofDocument reading.store document
        | none => .error .noCurrentEntry := by
  induction count generalizing reading with
  | zero =>
    simp only [after, next, get]
    cases reading.ahead <;> exact ⟨rfl, rfl⟩
  | succ count ih =>
    have later := ih reading.next.2
    rw [after, after]
    refine ⟨later.1.trans ?_, later.2.trans ?_⟩
    · rw [next]
      cases ahead : reading.ahead with
      | nil => simp
      | cons => simp
    · rw [next]
      cases ahead : reading.ahead with
      | nil => simp
      | cons => simp

end Reading

namespace Client

/-- A use of a client. Listings are known by the order in which they were started. -/
inductive Call
  | submit (batch : Batch)
  | flush
  | list (store : Store)
  | next (position : Nat)
  | get (position : Nat)
  | free (position : Nat)

inductive Answer
  | done (answer : Except Error Unit)
  | found (more : Bool)
  | collection (answer : Except Error Collection)
  | freed
  | absent

/-- A client and the listings that were started with it; nothing stands for one that was
given up. -/
structure InUse where
  client : Client
  listings : List (Option Listing)

namespace InUse

def listing? (inUse : InUse) (position : Nat) : Option Listing :=
  inUse.listings[position]?.join

def call (inUse : InUse) : Call → Option (InUse × Answer)
  | .submit batch => (inUse.client.submit batch).map fun outcome =>
    ({ inUse with client := outcome.client }, .done outcome.answer)
  | .flush => inUse.client.flush.map fun outcome =>
    ({ inUse with client := outcome.client }, .done outcome.answer)
  | .list store => (inUse.client.list store).map fun outcome =>
    match outcome.answer with
    | .ok listing => (⟨outcome.client, inUse.listings ++ [some listing]⟩, .done (.ok ()))
    | .error error => (⟨outcome.client, inUse.listings ++ [none]⟩, .done (.error error))
  | .next position =>
    match inUse.listing? position with
    | some listing =>
      some ({ inUse with listings := inUse.listings.set position (some listing.advance.listing) },
        .found listing.advance.found)
    | none => some (inUse, .absent)
  | .get position =>
    match inUse.listing? position with
    | some listing => some (inUse, .collection listing.current)
    | none => some (inUse, .absent)
  | .free position =>
    match inUse.listing? position with
    | some listing =>
      some (⟨inUse.client.free listing, inUse.listings.set position none⟩, .freed)
    | none => some (inUse, .absent)

def run (inUse : InUse) : List Call → Option (InUse × List Answer)
  | [] => some (inUse, [])
  | call :: rest => do
    let (after, answer) ← inUse.call call
    let (last, answers) ← after.run rest
    return (last, answer :: answers)

end InUse

/-- What is submitted lists documents that nest no deeper than readers allow. -/
def Call.Shallow : Call → Prop
  | .submit batch => ∀ operation ∈ batch.operations, operation.Shallow
  | _ => True

/-- The use may need a connection. -/
def Call.Connects : Call → Prop
  | .submit _ | .flush | .list _ => True
  | .next _ | .get _ | .free _ => False

end Client

structure Catalog.InUse where
  catalog : Catalog
  readings : List (Option Reading)

namespace Catalog.InUse

open Client (Call Answer)

def new : InUse :=
  ⟨.empty, []⟩

def reading? (inUse : InUse) (position : Nat) : Option Reading :=
  inUse.readings[position]?.join

/-- How many listings were started and not given up. -/
def alive (inUse : InUse) : Nat :=
  inUse.readings.countP Option.isSome

/-- The same use of a catalog. What is submitted shows at once, and what was read off
before stays. -/
def call (inUse : InUse) : Call → InUse × Answer
  | .submit batch => ({ inUse with catalog := inUse.catalog.after batch.operations }, .done (.ok ()))
  | .flush => (inUse, .done (.ok ()))
  | .list store =>
    ({ inUse with readings := inUse.readings ++ [some ⟨store, inUse.catalog store.name, none⟩] },
      .done (.ok ()))
  | .next position =>
    match inUse.reading? position with
    | some reading =>
      ({ inUse with readings := inUse.readings.set position (some reading.next.2) },
        .found reading.next.1)
    | none => (inUse, .absent)
  | .get position =>
    match inUse.reading? position with
    | some reading => (inUse, .collection reading.get)
    | none => (inUse, .absent)
  | .free position =>
    match inUse.reading? position with
    | some _ => ({ inUse with readings := inUse.readings.set position none }, .freed)
    | none => (inUse, .absent)

def run (inUse : InUse) : List Call → InUse × List Answer
  | [] => (inUse, [])
  | call :: rest =>
    let (after, answer) := inUse.call call
    let (last, answers) := after.run rest
    (last, answer :: answers)

/-- Whenever a connection may be needed, fewer listings are alive than there may be
connections. -/
def Fits (limit : Nat) (inUse : InUse) : List Call → Prop
  | [] => True
  | call :: rest => (call.Connects → inUse.alive < limit) ∧ Fits limit (inUse.call call).1 rest

end Catalog.InUse

/-- The listing goes through the documents of the reading, as they are read back. -/
structure Listing.Follows (listing : Listing) (reading : Reading) : Prop where
  store : listing.store = reading.store
  sound : listing.failed = false
  ahead : listing.cursor.Scans (reading.ahead.map Document.reread)
  current : listing.cursor.current = reading.current.map Document.reread
  lender : listing.loan.index = metadataIndex

theorem Listing.advance_follows {listing : Listing} {reading : Reading}
    (follows : listing.Follows reading) :
    listing.advance.found = reading.next.1 ∧ listing.advance.listing.Follows reading.next.2 := by
  obtain ⟨store, sound, ahead, -, lender⟩ := follows
  rw [advance, sound, if_neg Bool.false_ne_true, Reading.next]
  cases rest : reading.ahead with
  | nil =>
    rw [rest] at ahead
    obtain ⟨next, moved, current, later⟩ := Cursor.advance_nil ahead
    simp only [moved]
    exact ⟨trivial, store, rfl, later, current, lender⟩
  | cons document documents =>
    rw [rest] at ahead
    obtain ⟨next, moved, current, later⟩ := Cursor.advance_cons ahead
    simp only [moved]
    exact ⟨trivial, store, rfl, later, current, lender⟩

theorem Listing.current_follows {listing : Listing} {reading : Reading}
    (follows : listing.Follows reading) : listing.current = reading.get := by
  obtain ⟨store, -, -, current, -⟩ := follows
  rw [Listing.current, Reading.get, current, store]
  cases reading.current with
  | none => rfl
  | some document => exact Collection.ofDocument_reread reading.store document

/-! ## Positions -/

section Positions

variable {α β : Type} {related : α → β → Prop} {first : List (Option α)}
  {second : List (Option β)}

theorem join_getElem?_set (entries : List (Option α)) (position other : Nat) (entry : Option α) :
    (entries.set position entry)[other]?.join =
      if position = other ∧ position < entries.length then entry else entries[other]?.join := by
  rw [List.getElem?_set]
  by_cases same : position = other
  · subst same
    by_cases inside : position < entries.length
    · simp [inside]
    · simp [inside]
  · simp [same]

theorem join_getElem?_concat (entries : List (Option α)) (entry : Option α) (other : Nat) :
    (entries ++ [entry])[other]?.join =
      if other = entries.length then entry else entries[other]?.join := by
  rcases Nat.lt_trichotomy other entries.length with inside | rfl | outside
  · rw [List.getElem?_append_left inside, if_neg (Nat.ne_of_lt inside)]
  · simp
  · have beyond : (entries ++ [entry]).length ≤ other := by
      rw [List.length_append, List.length_singleton]
      exact outside
    rw [List.getElem?_eq_none beyond, List.getElem?_eq_none (Nat.le_of_lt outside),
      if_neg (Nat.ne_of_gt outside)]

theorem rel_set (length : first.length = second.length)
    (each : ∀ position : Nat, Option.Rel related first[position]?.join second[position]?.join)
    (position : Nat) {entry : Option α} {entry' : Option β}
    (new : Option.Rel related entry entry') (other : Nat) :
    Option.Rel related (first.set position entry)[other]?.join
      (second.set position entry')[other]?.join := by
  rw [join_getElem?_set, join_getElem?_set, length]
  split
  · exact new
  · exact each other

theorem rel_concat (length : first.length = second.length)
    (each : ∀ position : Nat, Option.Rel related first[position]?.join second[position]?.join)
    {entry : Option α} {entry' : Option β} (new : Option.Rel related entry entry') (other : Nat) :
    Option.Rel related (first ++ [entry])[other]?.join (second ++ [entry'])[other]?.join := by
  rw [join_getElem?_concat, join_getElem?_concat, length]
  split
  · exact new
  · exact each other

theorem countP_set_none {entries : List (Option α)} {position : Nat} {entry : α}
    (found : entries[position]?.join = some entry) :
    entries.countP Option.isSome = (entries.set position none).countP Option.isSome + 1 := by
  obtain ⟨inside, here⟩ := List.getElem?_eq_some_iff.mp (Option.join_eq_some_iff.mp found)
  have counted : 0 < entries.countP Option.isSome :=
    List.countP_pos_iff.mpr ⟨_, List.getElem_mem inside, by rw [here]; rfl⟩
  rw [List.countP_set inside, here]
  simp only [Option.isSome_some, if_true, Option.isSome_none, Bool.false_eq_true, if_false]
  omega

theorem countP_set_some {entries : List (Option α)} {position : Nat} {entry : α}
    (found : entries[position]?.join = some entry) (other : α) :
    (entries.set position (some other)).countP Option.isSome = entries.countP Option.isSome := by
  obtain ⟨inside, here⟩ := List.getElem?_eq_some_iff.mp (Option.join_eq_some_iff.mp found)
  have counted : 0 < entries.countP Option.isSome :=
    List.countP_pos_iff.mpr ⟨_, List.getElem_mem inside, by rw [here]; rfl⟩
  rw [List.countP_set inside, here]
  simp only [Option.isSome_some, if_true]
  omega

theorem countP_of_rel (length : first.length = second.length)
    (each : ∀ position : Nat, Option.Rel related first[position]?.join second[position]?.join) :
    first.countP Option.isSome = second.countP Option.isSome := by
  induction first generalizing second with
  | nil =>
    rw [List.eq_nil_of_length_eq_zero length.symm]
    rfl
  | cons entry first ih =>
    obtain ⟨entry', second, rfl⟩ := List.exists_cons_of_length_eq_add_one length.symm
    have here : Option.Rel related entry entry' := each 0
    have later := ih (Nat.succ.inj length) fun position => each (position + 1)
    cases here with
    | some same => rw [List.countP_cons_of_pos rfl, List.countP_cons_of_pos rfl, later]
    | none =>
      rw [List.countP_cons_of_neg Bool.false_ne_true, List.countP_cons_of_neg Bool.false_ne_true,
        later]

end Positions

namespace Client

/-- The client is going to write what the catalog says, and each listing follows its
reading. -/
structure InUse.Follows (inUse : InUse) (reference : Catalog.InUse) (limit : Nat) : Prop where
  catalog : ∃ contents, contents.Lists reference.catalog ∧
    inUse.client.queue.Promises inUse.client.service contents limit reference.alive
  length : inUse.listings.length = reference.readings.length
  each (position : Nat) : Option.Rel Listing.Follows (inUse.listing? position)
    (reference.reading? position)

variable {inUse : InUse} {reference : Catalog.InUse} {limit : Nat}

theorem submit_follows (follows : inUse.Follows reference limit) (room : reference.alive < limit)
    {batch : Batch} (shallow : ∀ operation ∈ batch.operations, operation.Shallow) :
    ∃ after, inUse.call (.submit batch) = some (after, (reference.call (.submit batch)).2) ∧
      after.Follows (reference.call (.submit batch)).1 limit := by
  obtain ⟨⟨contents, lists, promises⟩, length, each⟩ := follows
  obtain ⟨outcome, submitted, answer, next⟩ := Queue.submit_promises promises room shallow
  refine ⟨{ inUse with client := ⟨outcome.queue, outcome.service⟩ }, ?_,
    ⟨_, Contents.operate_lists lists batch.operations, next⟩, length, each⟩
  simp only [InUse.call, submit, submitted, Option.map_some, ofQueueOutcome, answer]
  rfl

theorem flush_follows (follows : inUse.Follows reference limit) (room : reference.alive < limit) :
    ∃ after, inUse.call .flush = some (after, (reference.call .flush).2) ∧
      after.Follows (reference.call .flush).1 limit := by
  obtain ⟨⟨contents, lists, promises⟩, length, each⟩ := follows
  obtain ⟨outcome, flushed, answer, none, serves⟩ := Queue.flush_serves promises room
  refine ⟨{ inUse with client := ⟨outcome.queue, outcome.service⟩ }, ?_,
    ⟨contents, lists, Queue.promises_of_serves serves none⟩, length, each⟩
  simp only [InUse.call, flush, flushed, Option.map_some, ofQueueOutcome, answer]
  rfl

/-- What waits is written before a connection is taken for the listing. -/
theorem list_follows (follows : inUse.Follows reference limit) (room : reference.alive < limit)
    (store : Store) :
    ∃ after, inUse.call (.list store) = some (after, (reference.call (.list store)).2) ∧
      after.Follows (reference.call (.list store)).1 limit := by
  obtain ⟨⟨contents, lists, promises⟩, length, each⟩ := follows
  obtain ⟨outcome, flushed, answer, none, represents, accounts, limited⟩ :=
    Queue.flush_serves promises room
  obtain ⟨loan, pool, acquired, lender, after, limited'⟩ :=
    Pool.acquire_granted accounts (limited ▸ room)
  obtain ⟨cursor, found, current, scans⟩ :=
    DocumentStore.find_scan represents (Store.listing store.name)
  rw [lists] at scans
  let listing : Listing := ⟨store, cursor, loan, false⟩
  have listed : inUse.client.list store = some
      ⟨⟨outcome.queue, { outcome.service with pool }⟩, .ok listing, outcome.warnings ++ []⟩ := by
    simp only [list, flush, flushed, Option.map_some, ofQueueOutcome, answer, listAfter,
      openListing, withConnection, acquired, found, Option.bind_eq_bind, Option.bind_some]
    rfl
  refine ⟨⟨⟨outcome.queue, { outcome.service with pool }⟩, inUse.listings ++ [some listing]⟩,
    by rw [InUse.call, listed]; rfl, ?_⟩
  constructor
  · refine ⟨contents, lists, ?_⟩
    have counted : (reference.call (.list store)).1.alive = reference.alive + 1 := by
      simp only [Catalog.InUse.call, Catalog.InUse.alive, List.countP_append]
      rfl
    rw [counted]
    exact Queue.promises_of_serves ⟨represents, after, limited'.trans limited⟩ none
  · simp only [List.length_append, Catalog.InUse.call, length, List.length_singleton]
  · exact rel_concat length each (.some ⟨rfl, rfl, scans, current, lender⟩)

theorem InUse.Follows.position (follows : inUse.Follows reference limit) (position : Nat) :
    inUse.listing? position = none ∧ reference.reading? position = none ∨
      ∃ listing reading, inUse.listing? position = some listing ∧
        reference.reading? position = some reading ∧ listing.Follows reading := by
  have here := follows.each position
  generalize inUse.listing? position = listing at here ⊢
  generalize reference.reading? position = reading at here ⊢
  cases here with
  | some same => exact .inr ⟨_, _, rfl, rfl, same⟩
  | none => exact .inl ⟨rfl, rfl⟩

theorem next_follows (follows : inUse.Follows reference limit) (position : Nat) :
    ∃ after, inUse.call (.next position) = some (after, (reference.call (.next position)).2) ∧
      after.Follows (reference.call (.next position)).1 limit := by
  rw [InUse.call, Catalog.InUse.call]
  rcases follows.position position with ⟨found, read⟩ | ⟨listing, reading, found, read, same⟩
  · simp only [found, read]
    exact ⟨inUse, rfl, follows⟩
  · obtain ⟨more, later⟩ := listing.advance_follows same
    obtain ⟨⟨contents, lists, promises⟩, length, each⟩ := follows
    have kept := countP_set_some read reading.next.2
    simp only [found, read, more]
    refine ⟨_, rfl, ?_⟩
    constructor
    · refine ⟨contents, lists, ?_⟩
      rw [Catalog.InUse.alive, kept]
      exact promises
    · rw [List.length_set, List.length_set, length]
    · exact rel_set length each position (.some later)

theorem get_follows (follows : inUse.Follows reference limit) (position : Nat) :
    ∃ after, inUse.call (.get position) = some (after, (reference.call (.get position)).2) ∧
      after.Follows (reference.call (.get position)).1 limit := by
  rw [InUse.call, Catalog.InUse.call]
  rcases follows.position position with ⟨found, read⟩ | ⟨listing, reading, found, read, same⟩
  · simp only [found, read]
    exact ⟨inUse, rfl, follows⟩
  · simp only [found, read, listing.current_follows same]
    exact ⟨inUse, rfl, follows⟩

theorem free_follows (follows : inUse.Follows reference limit) (position : Nat) :
    ∃ after, inUse.call (.free position) = some (after, (reference.call (.free position)).2) ∧
      after.Follows (reference.call (.free position)).1 limit := by
  rw [InUse.call, Catalog.InUse.call]
  rcases follows.position position with ⟨found, read⟩ | ⟨listing, reading, found, read, same⟩
  · simp only [found, read]
    exact ⟨inUse, rfl, follows⟩
  · obtain ⟨⟨contents, lists, written, serves, complete, shallow⟩, length, each⟩ := follows
    rw [Catalog.InUse.alive, countP_set_none read] at serves
    have released := Pool.release_accounts serves.accounts same.lender
    simp only [found, read]
    refine ⟨_, rfl, ?_⟩
    constructor
    · exact ⟨contents, lists, written, ⟨serves.represents, released, serves.limited⟩, complete,
        shallow⟩
    · rw [List.length_set, List.length_set, length]
    · exact rel_set length each position .none

theorem call_follows (follows : inUse.Follows reference limit) {call : Call}
    (shallow : call.Shallow) (room : call.Connects → reference.alive < limit) :
    ∃ after, inUse.call call = some (after, (reference.call call).2) ∧
      after.Follows (reference.call call).1 limit := by
  cases call with
  | submit batch => exact submit_follows follows (room trivial) shallow
  | flush => exact flush_follows follows (room trivial)
  | list store => exact list_follows follows (room trivial) store
  | next position => exact next_follows follows position
  | get position => exact get_follows follows position
  | free position => exact free_follows follows position

theorem run_follows (follows : inUse.Follows reference limit) {calls : List Call}
    (shallow : ∀ call ∈ calls, call.Shallow) (fits : reference.Fits limit calls) :
    ∃ after, inUse.run calls = some (after, (reference.run calls).2) ∧
      after.Follows (reference.run calls).1 limit := by
  induction calls generalizing inUse reference with
  | nil => exact ⟨inUse, rfl, follows⟩
  | cons call rest ih =>
    obtain ⟨room, later⟩ := fits
    obtain ⟨next, called, follows⟩ := call_follows follows (shallow call List.mem_cons_self) room
    obtain ⟨after, ran, follows⟩ :=
      ih follows (fun other member => shallow other (List.mem_cons_of_mem _ member)) later
    refine ⟨after, ?_, follows⟩
    rw [InUse.run, called]
    simp only [Option.bind_eq_bind, Option.bind_some, ran]
    rfl

theorem start_follows (servers : List String) (queueLimit poolLimit : Nat) {store : DocumentStore}
    {contents : Contents} {catalog : Catalog} (represents : store.Represents contents)
    (lists : contents.Lists catalog) :
    InUse.Follows ⟨new servers store queueLimit poolLimit, []⟩ ⟨catalog, []⟩ (max poolLimit 1) := by
  constructor
  · refine ⟨contents, lists, Queue.promises_of_serves ?_ rfl⟩
    exact ⟨represents, Pool.new_accounts servers poolLimit, rfl⟩
  · rfl
  · intro position
    exact .none

theorem new_follows (servers : List String) (queueLimit poolLimit : Nat) :
    InUse.Follows ⟨new servers .empty queueLimit poolLimit, []⟩ .new (max poolLimit 1) :=
  start_follows servers queueLimit poolLimit DocumentStore.empty_represents Contents.empty_lists

/-- Listing through a client is listing a catalog. Whatever is submitted under whatever
semantics, flushed, listed and given up, as long as no use has to wait for a connection,
every use answers what the catalog answers: nothing that is submitted or listed fails, and
each listing meets the collections of the documents that its store listed when it was
started, one after the other and each once, and then nothing for ever. -/
theorem run_refines_catalog (servers : List String) (queueLimit poolLimit : Nat)
    {calls : List Call} (shallow : ∀ call ∈ calls, call.Shallow)
    (fits : Catalog.InUse.new.Fits (max poolLimit 1) calls) :
    (∃ after, InUse.run ⟨new servers .empty queueLimit poolLimit, []⟩ calls =
      some (after, (Catalog.InUse.new.run calls).2)) ∧
    ∀ (reading : Reading) (count : Nat),
      (reading.after count).next.1 = decide (count < reading.ahead.length) ∧
      (reading.after (count + 1)).get = match reading.ahead[count]? with
        | some document => Collection.ofDocument reading.store document
        | none => .error .noCurrentEntry := by
  obtain ⟨after, ran, -⟩ := run_follows (new_follows servers queueLimit poolLimit) shallow fits
  exact ⟨⟨after, ran⟩, Reading.after_meets⟩

/-- A listing does not meet what is submitted after it was started. -/
theorem run_refines_catalog_snapshot :
    ∃ after, InUse.run ⟨new ["m"] .empty 1 2, []⟩ [
        .submit (.create (.standard "s") ⟨0⟩ "a"), .list (.standard "s"),
        .submit (.delete (.standard "s") "a"), .next 0, .get 0, .next 0, .free 0] =
      some (after, [.done (.ok ()), .done (.ok ()), .done (.ok ()), .found true,
        .collection (.ok ⟨⟨0⟩, "a", .standard "s"⟩), .found false, .freed]) := by
  have shallow : ∀ call ∈ [Call.submit (.create (.standard "s") ⟨0⟩ "a"), .list (.standard "s"),
      .submit (.delete (.standard "s") "a"), .next 0, .get 0, .next 0, .free 0],
      call.Shallow := by
    simp only [List.forall_mem_cons, Call.Shallow, Batch.create, Batch.delete, Operation.Shallow,
      Operation.write, Write.Shallow, List.not_mem_nil, false_imp_iff, implies_true, and_true]
    decide +kernel
  have fits : Catalog.InUse.new.Fits (max 2 1) [Call.submit (.create (.standard "s") ⟨0⟩ "a"),
      .list (.standard "s"), .submit (.delete (.standard "s") "a"), .next 0, .get 0, .next 0,
      .free 0] := by
    refine ⟨?_, ?_, ?_, ?_, ?_, ?_, ?_, trivial⟩
    all_goals intro
    all_goals decide
  obtain ⟨⟨after, ran⟩, -⟩ := run_refines_catalog ["m"] 1 2 shallow fits
  refine ⟨after, ran.trans (congrArg (fun answers => some (after, answers)) ?_)⟩
  rfl

end Client
end MetadataClient
