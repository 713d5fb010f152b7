import Mathlib.Data.List.ReduceOption
import MetadataClient.Proofs.Client.Listing
import MetadataClient.Proofs.Queue.Borrowing

/-! Connections in the hands of a client. Between any two uses of a client exactly those
connections are lent that its listings hold and those that were acquired directly, and no use
leaves another one behind, be it successful or not. -/
namespace MetadataClient

theorem perm_reduceOption_set {α : Type} {entries : List (Option α)} {position : Nat} {entry : α}
    (found : entries[position]?.join = some entry) :
    entries.reduceOption.Perm (entry :: (entries.set position none).reduceOption) := by
  induction entries generalizing position with
  | nil => cases found
  | cons first rest ih =>
    cases position with
    | zero =>
      obtain rfl : first = some entry := found
      rw [List.set_cons_zero, List.reduceOption_cons_of_some, List.reduceOption_cons_of_none]
    | succ position =>
      have later := ih found
      rw [List.set_cons_succ]
      cases first with
      | none =>
        rw [List.reduceOption_cons_of_none, List.reduceOption_cons_of_none]
        exact later
      | some other =>
        rw [List.reduceOption_cons_of_some, List.reduceOption_cons_of_some]
        exact (later.cons other).trans (.swap ..)

namespace Client

variable {client : Client} {store : Store} {outcome : Outcome Listing}

/-! ## Opening a listing -/

def listThrough {κ : Type} (flush : κ → Client → Option (κ × Outcome Unit)) (cache : κ)
    (client : Client) (store : Store) : Option (κ × Outcome Listing) := do
  let (cache, flushed) ← flush cache client
  let outcome ← flushed.client.listAfter flushed.answer store
  return (cache, { outcome with warnings := flushed.warnings ++ outcome.warnings })

theorem listThrough_eq_some_iff {κ : Type} {flush : κ → Client → Option (κ × Outcome Unit)}
    {cache after : κ} :
    listThrough flush cache client store = some (after, outcome) ↔
      ∃ flushed, flush cache client = some (after, flushed) ∧
        ∃ opened, flushed.client.listAfter flushed.answer store = some opened ∧
          { opened with warnings := flushed.warnings ++ opened.warnings } = outcome := by
  simp only [listThrough, Option.bind_eq_bind, Option.bind_eq_some_iff, Option.pure_def,
    Option.some.injEq, Prod.mk.injEq, Prod.exists]
  constructor
  · rintro ⟨_, flushed, done, opened, listed, rfl, same⟩
    exact ⟨flushed, done, opened, listed, same⟩
  · rintro ⟨flushed, done, opened, listed, same⟩
    exact ⟨after, flushed, done, opened, listed, rfl, same⟩

theorem list_eq_listThrough (client : Client) (store : Store) :
    listThrough (fun () client => client.flush.map ((), ·)) () client store =
      (client.list store).map ((), ·) := by
  rw [listThrough, list]
  cases client.flush with
  | none => rfl
  | some flushed =>
    simp only [Option.bind_eq_bind, Option.map_some, Option.bind_some, Option.pure_def]
    cases flushed.client.listAfter flushed.answer store with
    | none => rfl
    | some opened => rfl

/-- What becomes of the connection that a listing is opened over. It stays with the listing,
or it is idle again. -/
inductive Opens (client : Client) (store : Store) (after : Client) :
    Except Error Listing → Prop
  | opened {loan : Loan Connection} {cursor : Cursor}
      (found : client.service.store.find (Store.listing store.name) .scan = .ok cursor)
      (granted : client.service.pool.acquire metadataIndex = (.granted loan, after.service.pool))
      (queue : after.queue = client.queue) :
      Opens client store after (.ok ⟨store, cursor, loan, false⟩)
  | failed {error : StoreError}
      (found : client.service.store.find (Store.listing store.name) .scan = .error error)
      (borrows : client.service.pool.Borrows after.service.pool)
      (queue : after.queue = client.queue) :
      Opens client store after (.error error.toError)

theorem openListing_opens (backed : 0 < client.service.pool.slots.length)
    (opened : client.openListing store = some outcome) :
    client.Opens store outcome.client outcome.answer := by
  rw [openListing, withConnection] at opened
  rcases Pool.acquire_metadata backed with full | ⟨loan, between, granted⟩
  · generalize client.service.pool.acquire metadataIndex = request at full opened
    obtain ⟨reply, pool⟩ := request
    cases full
    cases opened
  · rw [granted] at opened
    simp only at opened
    cases found : client.service.store.find (Store.listing store.name) .scan with
    | ok cursor =>
      simp only [found] at opened
      cases opened
      exact .opened found granted rfl
    | error error =>
      simp only [found] at opened
      cases opened
      exact .failed found (Pool.borrows_of_granted granted) rfl

/-! ## Using a client -/

/-- A use of a client and of its pool. Guards are known by the order in which they were
asked for. -/
inductive Use
  | call (call : Call)
  | listBehind (error : Error) (store : Store)
  | acquire (index : Nat)
  | drop (position : Nat)
  | discard (position : Nat)

/-- A client in use and the connections that were acquired directly; nothing stands for one
that was given back. -/
structure Holdings where
  inUse : InUse
  guards : List (Option (Loan Connection))

namespace Holdings

def new (servers : List String) (store : DocumentStore) (queueLimit poolLimit : Nat) : Holdings :=
  ⟨⟨.new servers store queueLimit poolLimit, []⟩, []⟩

def pool (holdings : Holdings) : MetadataPool :=
  holdings.inUse.client.service.pool

def withClient (holdings : Holdings) (client : Client) : Holdings :=
  { holdings with inUse := { holdings.inUse with client } }

def withPool (holdings : Holdings) (pool : MetadataPool) : Holdings :=
  holdings.withClient { holdings.inUse.client with service.pool := pool }

def withListing (holdings : Holdings) (listing : Option Listing) : Holdings :=
  { holdings with
    inUse := { holdings.inUse with listings := holdings.inUse.listings ++ [listing] } }

def finish (holdings : Holdings) (position : Nat)
    (ending : MetadataPool → Loan Connection → MetadataPool) : Holdings :=
  match holdings.guards[position]?.join with
  | none => holdings
  | some loan =>
    { holdings.withPool (ending holdings.pool loan) with
      guards := holdings.guards.set position none }

/-- A use, unless it has to wait for a connection. -/
def use (holdings : Holdings) : Use → Option Holdings
  | .call call => (holdings.inUse.call call).map fun (inUse, _) => { holdings with inUse }
  | .listBehind error store =>
    (holdings.inUse.client.listAfter (.error error) store).map fun outcome =>
      (holdings.withClient outcome.client).withListing outcome.answer.toOption
  | .acquire index =>
    match holdings.pool.acquire index with
    | (.waiting, _) => none
    | (reply, pool) =>
      some { holdings.withPool pool with guards := holdings.guards ++ [reply.loan?] }
  | .drop position => some (holdings.finish position Pool.release)
  | .discard position => some (holdings.finish position Pool.discard)

def run (holdings : Holdings) : List Use → Option Holdings
  | [] => some holdings
  | use :: rest => (holdings.use use).bind fun after => after.run rest

def loans (holdings : Holdings) : List (Loan Connection) :=
  (holdings.inUse.listings.map (Option.map Listing.loan)).reduceOption ++
    holdings.guards.reduceOption

/-- Whatever is in somebody's hands is lent, and nothing else is. -/
structure Settled (holdings : Holdings) (limit : Nat) : Prop where
  balanced : holdings.pool.Balanced holdings.loans
  backed : 0 < holdings.pool.slots.length
  limited : holdings.pool.limit = limit
  queued : holdings.inUse.client.queue.Sound

variable {holdings after : Holdings} {limit : Nat}

theorem new_settled (servers : List String) (store : DocumentStore) (queueLimit poolLimit : Nat) :
    (new servers store queueLimit poolLimit).Settled (max poolLimit 1) := by
  refine ⟨Pool.new_balanced _ _, ?_, rfl, Queue.new_sound _⟩
  have positive : 0 < max servers.length 1 := by omega
  exact List.length_replicate (n := max servers.length 1) ▸ positive

theorem Settled.step (settled : holdings.Settled limit)
    (balanced : after.pool.Balanced after.loans) (keeps : holdings.pool.Keeps after.pool)
    (queued : after.inUse.client.queue.Sound) : after.Settled limit :=
  ⟨balanced, keeps.backends ▸ settled.backed, keeps.limit.trans settled.limited, queued⟩

theorem finish_settled (settled : holdings.Settled limit) (position : Nat)
    {ending : MetadataPool → Loan Connection → MetadataPool}
    (ends : ∀ pool loan loans, Pool.Balanced pool (loan :: loans) →
      Pool.Balanced (ending pool loan) loans)
    (keeps : ∀ pool loan, Pool.Keeps pool (ending pool loan)) :
    (holdings.finish position ending).Settled limit := by
  rw [finish]
  cases found : holdings.guards[position]?.join with
  | none => exact settled
  | some loan =>
    have same : holdings.loans.Perm
        (loan :: { holdings with guards := holdings.guards.set position none }.loans) :=
      ((perm_reduceOption_set found).append_left _).trans List.perm_middle
    exact settled.step (ends _ _ _ (settled.balanced.perm same)) (keeps _ _) settled.queued

theorem acquire_settled (settled : holdings.Settled limit) (index : Nat)
    (used : holdings.use (.acquire index) = some after) : after.Settled limit := by
  have balanced := Pool.acquire_balanced settled.balanced index
  have keeps := Pool.acquire_keeps holdings.pool index
  have same (loan? : Option (Loan Connection)) : (loan?.toList ++ holdings.loans).Perm
      { holdings with guards := holdings.guards ++ [loan?] }.loans := by
    refine List.perm_append_comm.trans ?_
    rw [loans, loans, List.append_assoc, List.reduceOption_append]
    cases loan? <;> rfl
  rw [use] at used
  rcases acquired : holdings.pool.acquire index with ⟨reply, pool⟩
  rw [acquired] at used balanced keeps
  have changed : ({ holdings.withPool pool with
      guards := holdings.guards ++ [reply.loan?] } : Holdings).Settled limit :=
    settled.step (balanced.perm (same reply.loan?)) keeps settled.queued
  cases reply with
  | waiting => cases used
  | granted loan =>
    cases used
    exact changed
  | refused index =>
    cases used
    exact changed
  | unreachable index error =>
    cases used
    exact changed

theorem Settled.used (settled : holdings.Settled limit) {client : Client}
    (uses : client.service.pool = holdings.pool ∨ holdings.pool.Borrows client.service.pool)
    (queued : client.queue.Sound) : (holdings.withClient client).Settled limit := by
  have balanced : client.service.pool.Balanced holdings.loans := by
    rcases uses with same | borrows
    · exact same ▸ settled.balanced
    · exact borrows.balanced settled.balanced
  have keeps : holdings.pool.Keeps client.service.pool := by
    rcases uses with same | borrows
    · exact same ▸ .refl _
    · exact borrows.keeps
  exact settled.step balanced keeps queued

theorem flush_settled (settled : holdings.Settled limit) {outcome : Outcome Unit}
    (flushed : holdings.inUse.client.flush = some outcome) :
    (holdings.withClient outcome.client).Settled limit := by
  obtain ⟨written, done, rfl⟩ := Option.map_eq_some_iff.mp flushed
  refine settled.used ?_ (settled.queued.flush done)
  by_cases empty : holdings.inUse.client.queue.batches = []
  · exact .inl (congrArg Service.pool (Queue.flush_idle empty done))
  · exact .inr (Queue.flush_borrows settled.backed empty done)

theorem submit_settled (settled : holdings.Settled limit) {batch : Batch} {outcome : Outcome Unit}
    (submitted : holdings.inUse.client.submit batch = some outcome) :
    (holdings.withClient outcome.client).Settled limit := by
  obtain ⟨written, done, rfl⟩ := Option.map_eq_some_iff.mp submitted
  exact settled.used (Queue.submit_uses settled.backed done) (settled.queued.submit done)

theorem loans_withListing (holdings : Holdings) (listing : Listing) :
    (listing.loan :: holdings.loans).Perm (holdings.withListing (some listing)).loans := by
  simp only [loans, withListing, List.map_append, List.reduceOption_append, List.append_assoc]
  exact List.perm_middle.symm

theorem loans_withListing_none (holdings : Holdings) :
    (holdings.withListing none).loans = holdings.loans := by
  simp only [loans, withListing, List.map_append, List.reduceOption_append, List.append_assoc]
  rfl

theorem withListing_none_settled (settled : holdings.Settled limit) :
    (holdings.withListing none).Settled limit := by
  refine settled.step ?_ (.refl _) settled.queued
  rw [loans_withListing_none]
  exact settled.balanced

theorem opens_settled (settled : holdings.Settled limit) {store : Store} {client : Client}
    {answer : Except Error Listing} (opens : holdings.inUse.client.Opens store client answer) :
    ((holdings.withClient client).withListing answer.toOption).Settled limit := by
  cases opens with
  | @opened loan cursor found granted queue =>
    have lent := Pool.acquire_balanced settled.balanced metadataIndex
    have keeps := Pool.acquire_keeps holdings.pool metadataIndex
    rw [pool, granted] at lent keeps
    have same := loans_withListing (holdings.withClient client) ⟨store, cursor, loan, false⟩
    exact settled.step (lent.perm same) keeps (queue ▸ settled.queued)
  | failed found borrows queue =>
    exact withListing_none_settled (settled.used (.inr borrows) (queue ▸ settled.queued))

/-- Listing a store flushes the queue once. Nothing is acquired behind a flush that fails. -/
theorem list_flushes (settled : holdings.Settled limit)
    (listed : holdings.inUse.client.list store = some outcome) :
    ∃ flushed, holdings.inUse.client.flush = some flushed ∧
      match flushed.answer with
      | .error error => outcome.client = flushed.client ∧ outcome.answer = .error error
      | .ok () => flushed.client.Opens store outcome.client outcome.answer := by
  rw [list] at listed
  simp only [Option.bind_eq_bind, Option.bind_eq_some_iff, Option.pure_def,
    Option.some.injEq] at listed
  obtain ⟨flushed, done, opened, listed, rfl⟩ := listed
  refine ⟨flushed, done, ?_⟩
  cases answer : flushed.answer with
  | error error =>
    rw [answer] at listed
    cases listed
    exact ⟨rfl, rfl⟩
  | ok =>
    rw [answer] at listed
    have opens := openListing_opens (flush_settled settled done).backed listed
    exact opens

theorem list_settled (settled : holdings.Settled limit)
    (listed : holdings.inUse.client.list store = some outcome) :
    ((holdings.withClient outcome.client).withListing outcome.answer.toOption).Settled limit := by
  obtain ⟨flushed, done, opened⟩ := list_flushes settled listed
  have between := flush_settled settled done
  rcases flushed with ⟨client, error | _, warnings⟩
  · obtain ⟨same, answer⟩ := opened
    rw [same, answer]
    exact withListing_none_settled between
  · have settled := opens_settled between opened
    exact settled

theorem advance_loan (listing : Listing) : listing.advance.listing.loan = listing.loan := by
  rw [Listing.advance]
  split
  · rfl
  · split <;> rfl

theorem next_settled (settled : holdings.Settled limit) {position : Nat} {listing : Listing}
    (found : holdings.inUse.listing? position = some listing) :
    Settled ⟨⟨holdings.inUse.client,
      holdings.inUse.listings.set position (some listing.advance.listing)⟩, holdings.guards⟩
      limit := by
  have here : (holdings.inUse.listings.map (Option.map Listing.loan))[position]? =
      some (some listing.loan) := by
    rw [List.getElem?_map, Option.join_eq_some_iff.mp found]
    rfl
  have same : (holdings.inUse.listings.set position (some listing.advance.listing)).map
      (Option.map Listing.loan) = holdings.inUse.listings.map (Option.map Listing.loan) := by
    obtain ⟨inside, held⟩ := List.getElem?_eq_some_iff.mp here
    rw [List.map_set, Option.map_some, advance_loan, ← held, List.set_getElem_self]
  refine settled.step ?_ (.refl _) settled.queued
  rw [loans]
  simp only [same]
  exact settled.balanced

theorem free_settled (settled : holdings.Settled limit) {position : Nat} {listing : Listing}
    (found : holdings.inUse.listing? position = some listing) :
    Settled ⟨⟨holdings.inUse.client.free listing, holdings.inUse.listings.set position none⟩,
      holdings.guards⟩ limit := by
  have here : (holdings.inUse.listings.map (Option.map Listing.loan))[position]?.join =
      some listing.loan := by
    rw [List.getElem?_map, Option.join_eq_some_iff.mp found]
    rfl
  have same := (perm_reduceOption_set here).append_right holdings.guards.reduceOption
  rw [← Option.map_none, ← List.map_set] at same
  have balanced := Pool.release_balanced (settled.balanced.perm same)
  exact settled.step balanced (Pool.release_keeps _ _) settled.queued

theorem call_settled (settled : holdings.Settled limit) {call : Call}
    (used : holdings.use (.call call) = some after) : after.Settled limit := by
  obtain ⟨⟨inUse, answer⟩, called, rfl⟩ := Option.map_eq_some_iff.mp used
  cases call with
  | submit batch =>
    obtain ⟨outcome, done, same⟩ := Option.map_eq_some_iff.mp called
    cases same
    exact submit_settled settled done
  | flush =>
    obtain ⟨outcome, done, same⟩ := Option.map_eq_some_iff.mp called
    cases same
    exact flush_settled settled done
  | list store =>
    obtain ⟨outcome, done, same⟩ := Option.map_eq_some_iff.mp called
    have listed := list_settled settled done
    rcases outcome with ⟨client, error | listing, warnings⟩
    · cases same
      exact listed
    · cases same
      exact listed
  | next position =>
    rw [InUse.call] at called
    cases found : holdings.inUse.listing? position with
    | none =>
      rw [found] at called
      cases called
      exact settled
    | some listing =>
      rw [found] at called
      cases called
      exact next_settled settled found
  | get position =>
    rw [InUse.call] at called
    split at called
    · cases called
      exact settled
    · cases called
      exact settled
  | free position =>
    rw [InUse.call] at called
    cases found : holdings.inUse.listing? position with
    | none =>
      rw [found] at called
      cases called
      exact settled
    | some listing =>
      rw [found] at called
      cases called
      exact free_settled settled found

theorem use_settled (settled : holdings.Settled limit) {use : Use}
    (used : holdings.use use = some after) : after.Settled limit := by
  cases use with
  | call call => exact call_settled settled used
  | listBehind error store =>
    cases used
    exact withListing_none_settled settled
  | acquire index => exact acquire_settled settled index used
  | drop position =>
    cases used
    exact finish_settled settled position (fun _ _ _ => Pool.release_balanced) Pool.release_keeps
  | discard position =>
    cases used
    exact finish_settled settled position (fun _ _ _ => Pool.discard_balanced) Pool.discard_keeps

theorem run_settled (settled : holdings.Settled limit) {uses : List Use}
    (ran : holdings.run uses = some after) : after.Settled limit := by
  induction uses generalizing holdings with
  | nil =>
    cases ran
    exact settled
  | cons use rest ih =>
    obtain ⟨next, used, ran⟩ := Option.bind_eq_some_iff.mp ran
    exact ih (use_settled settled used) ran

/-! ## Counting -/

def held (holdings : Holdings) (index : Nat) : Nat :=
  holdings.inUse.listings.countP (·.any (·.loan.index == index)) +
    holdings.guards.countP (·.any (·.index == index))

/-- The pool's own accounts agree with what the listings and the guards hold. -/
structure Accounted (holdings : Holdings) (limit : Nat) : Prop where
  inUse : holdings.pool.inUse =
    holdings.inUse.listings.countP Option.isSome + holdings.guards.countP Option.isSome
  backend (index : Nat) (slot : Slot Connection) : holdings.pool.slots[index]? = some slot →
    slot.idle.length + holdings.held index = slot.existing ∧ slot.existing ≤ limit
  elsewhere (index : Nat) : holdings.pool.slots.length ≤ index → holdings.held index = 0

theorem countP_reduceOption {α : Type} (p : α → Bool) (entries : List (Option α)) :
    entries.reduceOption.countP p = entries.countP (·.any p) := by
  induction entries with
  | nil => rfl
  | cons entry entries ih =>
    cases entry with
    | none => simp [List.reduceOption_cons_of_none, ih]
    | some entry => simp [List.reduceOption_cons_of_some, List.countP_cons, ih]

theorem lent_loans (holdings : Holdings) (index : Nat) :
    Pool.lent holdings.loans index = holdings.held index := by
  rw [Pool.lent, loans, List.countP_append, countP_reduceOption, countP_reduceOption,
    List.countP_map, held]
  simp only [Function.comp_def, Option.any_map]

theorem length_loans (holdings : Holdings) : holdings.loans.length =
    holdings.inUse.listings.countP Option.isSome + holdings.guards.countP Option.isSome := by
  have counted {α : Type} (entries : List (Option α)) :
      entries.reduceOption.length = entries.countP Option.isSome := by
    rw [List.reduceOption_length_eq, List.countP_eq_length_filter]
  rw [loans, List.length_append, counted, counted, List.countP_map]
  simp only [Function.comp_def, Option.isSome_map]

theorem Settled.accounted (settled : holdings.Settled limit) : holdings.Accounted limit := by
  obtain ⟨balanced, backed, rfl, queued⟩ := settled
  refine ⟨?_, ?_, ?_⟩
  · rw [balanced.inUse_eq, length_loans]
  · intro index slot found
    obtain ⟨counted, bounded⟩ := balanced.settled index slot found
    rw [lent_loans] at counted
    exact ⟨counted, bounded⟩
  · intro index outside
    rw [← lent_loans, Pool.lent, List.countP_eq_zero]
    intro loan held same
    have known := balanced.known loan held
    rw [beq_iff_eq.mp same] at known
    exact absurd outside (Nat.not_le_of_lt known)

end Holdings

/-! ## Single calls -/

/-- What the calls of a client take from the pool and give back. -/
structure Exchanges (client : Client) : Prop where
  flushNothing : client.queue.pending = 0 → ∀ outcome, client.flush = some outcome →
    outcome.client.service.pool = client.service.pool
  flush : client.queue.pending ≠ 0 → ∀ outcome, client.flush = some outcome →
    client.service.pool.Borrows outcome.client.service.pool
  submit (batch : Batch) : batch.operations ≠ [] →
    batch.semantics.persistency.isDeferrable = false →
    ∀ outcome, client.submit batch = some outcome →
      client.service.pool.Borrows outcome.client.service.pool
  list (store : Store) (outcome : Outcome Listing) : client.list store = some outcome →
    outcome.client.queue.flushes = client.queue.flushes + 1 ∧
      ∃ flushed, client.flush = some flushed ∧
        match flushed.answer with
        | .error error => outcome.client = flushed.client ∧ outcome.answer = .error error
        | .ok () => flushed.client.Opens store outcome.client outcome.answer
  listThrough {κ : Type} (flush : κ → Client → Option (κ × Outcome Unit)) (cache after : κ)
    (store : Store) (outcome : Outcome Listing) :
    listThrough flush cache client store = some (after, outcome) →
      ∃ flushed, flush cache client = some (after, flushed) ∧
        ∀ error, flushed.answer = .error error →
          outcome = ⟨flushed.client, .error error, flushed.warnings⟩

theorem Opens.queue {after : Client} {answer : Except Error Listing}
    (opens : client.Opens store after answer) : after.queue = client.queue := by
  cases opens with
  | opened found granted queue => exact queue
  | failed found borrows queue => exact queue

theorem Holdings.Settled.exchanges {holdings : Holdings} {limit : Nat}
    (settled : holdings.Settled limit) : holdings.inUse.client.Exchanges := by
  constructor
  · intro nothing outcome flushed
    obtain ⟨written, done, rfl⟩ := Option.map_eq_some_iff.mp flushed
    have empty := settled.queued.pending_eq_zero_iff.mp nothing
    exact congrArg Service.pool (Queue.flush_idle empty done)
  · intro waiting outcome flushed
    obtain ⟨written, done, rfl⟩ := Option.map_eq_some_iff.mp flushed
    rw [ne_eq, settled.queued.pending_eq_zero_iff] at waiting
    exact Queue.flush_borrows settled.backed waiting done
  · intro batch filled immediate outcome submitted
    obtain ⟨written, done, rfl⟩ := Option.map_eq_some_iff.mp submitted
    exact Queue.submit_borrows settled.backed filled immediate done
  · intro store outcome listed
    obtain ⟨flushed, done, opened⟩ := list_flushes settled listed
    refine ⟨?_, flushed, done, opened⟩
    obtain ⟨written, counted, rfl⟩ := Option.map_eq_some_iff.mp done
    have same : outcome.client.queue = written.queue := by
      rcases written with ⟨queue, service, committed, error | _, warnings⟩
      · exact congrArg Client.queue opened.1
      · exact opened.queue
    rw [same]
    exact Queue.flush_flushes counted
  · intro κ flush cache after store outcome listed
    obtain ⟨flushed, done, opened, started, rfl⟩ := listThrough_eq_some_iff.mp listed
    refine ⟨flushed, done, ?_⟩
    intro error answer
    rw [answer] at started
    cases started
    simp only [List.append_nil]

/-- Whatever is done with a client over whatever store, as long as nobody has to wait, the
connections in use are those of the listings that are alive and of the guards that are
held. -/
theorem run_accounted (servers : List String) (store : DocumentStore) (queueLimit poolLimit : Nat)
    {uses : List Use} {holdings : Holdings}
    (ran : (Holdings.new servers store queueLimit poolLimit).run uses = some holdings) :
    holdings.Accounted (max poolLimit 1) ∧ holdings.inUse.client.Exchanges := by
  have settled := Holdings.run_settled
    (Holdings.new_settled servers store queueLimit poolLimit) ran
  exact ⟨settled.accounted, settled.exchanges⟩

def mixedUses : List Use :=
  [.call (.submit (.create (.standard "s") ⟨0⟩ "a")), .call (.list (.standard "s")),
    .call (.list (.standard "t")), .call (.next 0), .acquire 0, .acquire 1,
    .listBehind (.connectionFailed "offline") (.standard "s"), .discard 0, .acquire 0]

theorem run_accounted_mixed :
    ∃ holdings, (Holdings.new ["m"] (.withForeignTable .empty "t.collections") 4 2).run mixedUses =
        some holdings ∧
      holdings.inUse.listings.countP Option.isSome + holdings.guards.countP Option.isSome = 2 ∧
      holdings.pool.inUse = 2 := by
  have returns : ((Holdings.new ["m"] (.withForeignTable .empty "t.collections") 4 2).run
      mixedUses).any (fun holdings => holdings.inUse.listings.countP Option.isSome +
        holdings.guards.countP Option.isSome == 2) = true := by decide +kernel
  obtain ⟨holdings, ran, two⟩ := (Option.any_eq_true ..).mp returns
  obtain ⟨accounted, -⟩ :=
    run_accounted ["m"] (.withForeignTable .empty "t.collections") 4 2 ran
  rw [beq_iff_eq] at two
  exact ⟨holdings, ran, two, accounted.inUse.trans two⟩

end Client
end MetadataClient
