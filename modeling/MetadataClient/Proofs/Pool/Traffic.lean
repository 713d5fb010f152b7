import MetadataClient.Pool.Numbered
import Mathlib.Algebra.BigOperators.Group.Multiset.Basic
import Mathlib.Data.Multiset.Filter
import Mathlib.Logic.Relation

/-! Traffic at a pool. Any number of users ask the backends of a pool for connections, hold them
and end their loans, all at the same time. A step is what one of them does while it has the
lock of a slot, or without a lock a connect, a notification or the keeping of a count; before
and after each step the others go on in any order. -/
namespace MetadataClient

namespace Slot

variable {γ : Type} {limit : Nat} {slot rest : Slot γ} {connection : γ}

theorem eq_of_request_take (turn : slot.request limit = .take connection rest) :
    slot = ⟨connection :: rest.idle, rest.existing⟩ := by
  rcases slot with ⟨_ | ⟨first, others⟩, existing⟩
  · simp only [request] at turn
    split at turn <;> cases turn
  · cases turn
    rfl

theorem eq_of_request_connect (turn : slot.request limit = .connect rest) :
    slot.idle = [] ∧ slot.existing < limit ∧ rest = ⟨[], slot.existing + 1⟩ := by
  rcases slot with ⟨_ | ⟨first, others⟩, existing⟩
  · simp only [request] at turn
    split at turn
    next below =>
      cases turn
      exact ⟨rfl, below, rfl⟩
    next => cases turn
  · cases turn

theorem full_of_request_wait (turn : slot.request limit = .wait) :
    slot.idle = [] ∧ limit ≤ slot.existing := by
  rcases slot with ⟨_ | ⟨first, others⟩, existing⟩
  · simp only [request] at turn
    split at turn
    next => cases turn
    next full => exact ⟨rfl, Nat.le_of_not_lt full⟩
  · cases turn

variable {δ : Type} (change : γ → δ)

def map (slot : Slot γ) : Slot δ :=
  ⟨slot.idle.map change, slot.existing⟩

def Turn.map : Turn γ → Turn δ
  | take connection rest => take (change connection) (rest.map change)
  | connect rest => connect (rest.map change)
  | wait => wait

theorem request_map (limit : Nat) (slot : Slot γ) :
    (slot.map change).request limit = (slot.request limit).map change := by
  rcases slot with ⟨_ | ⟨first, others⟩, existing⟩
  · by_cases below : existing < limit
    · simp only [request, map, List.map_nil, below, if_true, Turn.map]
    · simp only [request, map, List.map_nil, below, if_false, Turn.map]
  · rfl

end Slot

namespace Traffic

/-- An open connection. No other one has its number, whatever the connector hands out. -/
structure Line (γ : Type) where
  number : Nat
  connection : γ

/-- Why a place has come free: a loan has ended, or a backend could not be connected to. -/
inductive Cause
  | ended
  | refused

def Cause.isEnded : Cause → Bool
  | .ended => true
  | .refused => false

/-- How far a user of a backend has come. A place is reserved before a connection is opened,
and a connection is there before it is counted as opened and then as acquired. When a place
comes free, the slot is changed first, then a sleeper is told, and last a loan that has ended
is counted as released. -/
inductive Stage (γ : Type)
  | asking (woken : Bool)
  | asleep
  | connecting
  | connected (connection : γ)
  | granted (connection : γ)
  | holding (connection : γ)
  | notifying (cause : Cause)
  | leaving (cause : Cause)

namespace Stage

variable {γ : Type}

def hand : Stage γ → Multiset γ
  | connected connection | granted connection | holding connection => {connection}
  | _ => 0

def isWoken : Stage γ → Bool
  | asking woken => woken
  | _ => false

def isConnecting : Stage γ → Bool
  | connecting => true
  | _ => false

def isConnected : Stage γ → Bool
  | connected _ => true
  | _ => false

def isGranted : Stage γ → Bool
  | granted _ => true
  | _ => false

def isHolding : Stage γ → Bool
  | holding _ => true
  | _ => false

def isNotifying : Stage γ → Bool
  | notifying _ => true
  | _ => false

def isEnding : Stage γ → Bool
  | notifying cause | leaving cause => cause.isEnded
  | _ => false

end Stage

/-- A backend with all who are using it. -/
structure Site (γ : Type) where
  slot : Slot γ
  users : Multiset (Stage γ)

/-- What a step changes elsewhere than at its site. -/
inductive Effect (γ : Type)
  | nothing
  | connect (answer : Except Error γ)
  | countOpened
  | countAcquired
  | close (connection : γ)
  | leave (cause : Cause)

variable {σ γ : Type}

/-- The steps at a site. Those that look at the slot or change it have its lock; the others
need none. -/
inductive Site.Step (limit : Nat) : Site γ → Effect γ → Site γ → Prop
  | arrive {slot : Slot γ} {users : Multiset (Stage γ)} :
      Step limit ⟨slot, users⟩ .nothing ⟨slot, .asking false ::ₘ users⟩
  | take {slot rest : Slot γ} {users : Multiset (Stage γ)} {woken : Bool} {connection : γ}
      (turn : slot.request limit = .take connection rest) :
      Step limit ⟨slot, .asking woken ::ₘ users⟩ .nothing ⟨rest, .granted connection ::ₘ users⟩
  | reserve {slot rest : Slot γ} {users : Multiset (Stage γ)} {woken : Bool}
      (turn : slot.request limit = .connect rest) :
      Step limit ⟨slot, .asking woken ::ₘ users⟩ .nothing ⟨rest, .connecting ::ₘ users⟩
  | sleep {slot : Slot γ} {users : Multiset (Stage γ)} {woken : Bool}
      (turn : slot.request limit = .wait) :
      Step limit ⟨slot, .asking woken ::ₘ users⟩ .nothing ⟨slot, .asleep ::ₘ users⟩
  | connect {slot : Slot γ} {users : Multiset (Stage γ)} {connection : γ} :
      Step limit ⟨slot, .connecting ::ₘ users⟩ (.connect (.ok connection))
        ⟨slot, .connected connection ::ₘ users⟩
  | refuse {slot : Slot γ} {users : Multiset (Stage γ)} {error : Error} :
      Step limit ⟨slot, .connecting ::ₘ users⟩ (.connect (.error error))
        ⟨slot.vacate, .notifying .refused ::ₘ users⟩
  | countOpened {slot : Slot γ} {users : Multiset (Stage γ)} {connection : γ} :
      Step limit ⟨slot, .connected connection ::ₘ users⟩ .countOpened
        ⟨slot, .granted connection ::ₘ users⟩
  | countAcquired {slot : Slot γ} {users : Multiset (Stage γ)} {connection : γ} :
      Step limit ⟨slot, .granted connection ::ₘ users⟩ .countAcquired
        ⟨slot, .holding connection ::ₘ users⟩
  | release {slot : Slot γ} {users : Multiset (Stage γ)} {connection : γ} :
      Step limit ⟨slot, .holding connection ::ₘ users⟩ .nothing
        ⟨slot.park connection, .notifying .ended ::ₘ users⟩
  | discard {slot : Slot γ} {users : Multiset (Stage γ)} {connection : γ} :
      Step limit ⟨slot, .holding connection ::ₘ users⟩ (.close connection)
        ⟨slot.vacate, .notifying .ended ::ₘ users⟩
  | wake {slot : Slot γ} {users : Multiset (Stage γ)} {cause : Cause} :
      Step limit ⟨slot, .notifying cause ::ₘ .asleep ::ₘ users⟩ .nothing
        ⟨slot, .leaving cause ::ₘ .asking true ::ₘ users⟩
  | wakeNobody {slot : Slot γ} {users : Multiset (Stage γ)} {cause : Cause}
      (awake : Stage.asleep ∉ users) :
      Step limit ⟨slot, .notifying cause ::ₘ users⟩ .nothing ⟨slot, .leaving cause ::ₘ users⟩
  | leave {slot : Slot γ} {users : Multiset (Stage γ)} {cause : Cause} :
      Step limit ⟨slot, .leaving cause ::ₘ users⟩ (.leave cause) ⟨slot, users⟩

/-- What is kept for the pool as a whole. All connections are known that were ever opened, and
all that were closed. -/
structure Books (σ γ : Type) where
  connector : σ
  limit : Nat
  acquired : Nat
  released : Nat
  opened : Nat
  history : Multiset (Loan (Line γ))
  closed : Multiset (Loan (Line γ))

end Traffic

/-- A pool in use. -/
structure Traffic (σ γ : Type) where
  books : Traffic.Books σ γ
  sites : List (Traffic.Site (Traffic.Line γ))

namespace Traffic

variable {σ γ : Type}

def pool (traffic : Traffic σ γ) : Pool σ γ :=
  ⟨traffic.books.connector, traffic.sites.map (·.slot.map Line.connection), traffic.books.limit,
    traffic.books.acquired, traffic.books.released, traffic.books.opened⟩

variable [Connector σ γ]

def start (connector : σ) (limit : Nat) : Traffic σ γ :=
  ⟨⟨connector, max limit 1, 0, 0, 0, 0, 0⟩,
    List.replicate (Connector.backends connector) ⟨.empty, 0⟩⟩

/-- How an effect is entered in the books, for a site of this index. Connections are numbered
as they are opened. -/
inductive Books.Record (books : Books σ γ) (index : Nat) : Effect (Line γ) → Books σ γ → Prop
  | nothing : Record books index .nothing books
  | connect {connection : γ} {connector : σ}
      (connected : Connector.connect books.connector index = (.ok connection, connector)) :
      Record books index (.connect (.ok ⟨books.history.card, connection⟩))
        { books with
          connector
          history := ⟨index, ⟨books.history.card, connection⟩⟩ ::ₘ books.history }
  | refuse {error : Error} {connector : σ}
      (refused : Connector.connect books.connector index = (.error error, connector)) :
      Record books index (.connect (.error error)) { books with connector }
  | countOpened : Record books index .countOpened { books with opened := books.opened + 1 }
  | countAcquired : Record books index .countAcquired { books with acquired := books.acquired + 1 }
  | close {line : Line γ} :
      Record books index (.close line) { books with closed := ⟨index, line⟩ ::ₘ books.closed }
  | leaveEnded : Record books index (.leave .ended) { books with released := books.released + 1 }
  | leaveRefused : Record books index (.leave .refused) books

/-- A step of one user. -/
inductive Step : Traffic σ γ → Traffic σ γ → Prop
  | move {books after : Books σ γ} {sites : List (Site (Line γ))} {index : Nat}
      {site next : Site (Line γ)} {effect : Effect (Line γ)} (found : sites[index]? = some site)
      (moved : site.Step books.limit effect next) (noted : books.Record index effect after) :
      Step ⟨books, sites⟩ ⟨after, sites.set index next⟩

abbrev Reaches : Traffic σ γ → Traffic σ γ → Prop :=
  Relation.ReflTransGen Step

theorem pool_start (connector : σ) (limit : Nat) :
    (start connector limit).pool = Pool.new connector limit := by
  simp [start, pool, Pool.new, Slot.map, Slot.empty]

theorem Books.Record.limit {books after : Books σ γ} {index : Nat} {effect : Effect (Line γ)}
    (noted : books.Record index effect after) : after.limit = books.limit := by
  cases noted <;> rfl

/-- What holds of a site without users and is kept by each step at a site holds of all sites. -/
theorem Reaches.sites {connector : σ} {limit : Nat} {traffic : Traffic σ γ}
    {Good : Site (Line γ) → Prop} (run : Reaches (start connector limit) traffic)
    (first : Good ⟨.empty, 0⟩)
    (kept : ∀ {site next effect}, site.Step (max limit 1) effect next → Good site → Good next) :
    traffic.books.limit = max limit 1 ∧ ∀ site ∈ traffic.sites, Good site := by
  induction run with
  | refl =>
    refine ⟨rfl, ?_⟩
    intro site member
    rw [List.eq_of_mem_replicate member]
    exact first
  | tail _ step known =>
    obtain ⟨limit, good⟩ := known
    obtain ⟨found, moved, noted⟩ := step
    refine ⟨noted.limit.trans limit, ?_⟩
    intro site member
    rcases List.mem_or_eq_of_mem_set member with old | rfl
    · exact good site old
    · rw [limit] at moved
      exact kept moved (good _ (List.mem_of_getElem? found))

/-! ## Calls that nobody interrupts -/

section Calls

variable {traffic : Traffic σ γ} {books after : Books σ γ} {sites : List (Site (Line γ))}
  {index : Nat} {site next : Site (Line γ)}

theorem Reaches.stay (found : sites[index]? = some site) :
    Reaches ⟨books, sites⟩ ⟨books, sites.set index site⟩ := by
  obtain ⟨inside, rfl⟩ := List.getElem?_eq_some_iff.mp found
  rw [List.set_getElem_self]

/-- Goes on at a site. -/
theorem Reaches.move {effect : Effect (Line γ)} (run : Reaches traffic ⟨books, sites.set index site⟩)
    (inside : index < sites.length) (moved : site.Step books.limit effect next)
    (noted : books.Record index effect after) :
    Reaches traffic ⟨after, sites.set index next⟩ := by
  have found : (sites.set index site)[index]? = some site := List.getElem?_set_self inside
  have step := Step.move found moved noted
  rw [List.set_set] at step
  exact run.tail step

theorem Reaches.notify {slot : Slot (Line γ)} {users : Multiset (Stage (Line γ))} {cause : Cause}
    (run : Reaches traffic ⟨books, sites.set index ⟨slot, .notifying cause ::ₘ users⟩⟩)
    (inside : index < sites.length) : ∃ others,
      Reaches traffic ⟨books, sites.set index ⟨slot, .leaving cause ::ₘ others⟩⟩ := by
  by_cases asleep : Stage.asleep ∈ users
  · obtain ⟨others, rfl⟩ := Multiset.exists_cons_of_mem asleep
    exact ⟨_, run.move inside .wake .nothing⟩
  · exact ⟨users, run.move inside (.wakeNobody asleep) .nothing⟩

theorem slots_set (sites : List (Site (Line γ))) (index : Nat) (slot : Slot (Line γ))
    (users : Multiset (Stage (Line γ))) :
    (sites.set index ⟨slot, users⟩).map (·.slot.map Line.connection) =
      (sites.map (·.slot.map Line.connection)).set index (slot.map Line.connection) := by
  rw [List.map_set]

theorem slots_modify (found : sites[index]? = some site) (change : Slot γ → Slot γ) :
    (sites.map (·.slot.map Line.connection)).set index
        (change (site.slot.map Line.connection)) =
      (sites.map (·.slot.map Line.connection)).modify index change := by
  obtain ⟨inside, rfl⟩ := List.getElem?_eq_some_iff.mp found
  have within : index < (sites.map (·.slot.map Line.connection)).length := by
    rwa [List.length_map]
  rw [List.modify_eq_set_getElem?, List.getElem?_eq_getElem within, List.getElem_map]
  rfl

/-- What a pool answers to a request for a connection is what one gets who asks for it. -/
theorem acquire_reaches (found : sites[index]? = some site) :
    match (pool ⟨books, sites⟩).acquire index with
    | (.granted loan, pool) => ∃ after, Reaches ⟨books, sites⟩ after ∧ after.pool = pool ∧
        loan.index = index ∧ ∃ slot number, after.sites =
          sites.set index ⟨slot, .holding ⟨number, loan.connection⟩ ::ₘ site.users⟩
    | (.refused _, _) => False
    | (.unreachable _ _, pool) => ∃ after, Reaches ⟨books, sites⟩ after ∧ after.pool = pool
    | (.waiting, pool) => ∃ after, Reaches ⟨books, sites⟩ after ∧ after.pool = pool ∧
        after.sites = sites.set index ⟨site.slot, .asleep ::ₘ site.users⟩ := by
  have inside : index < sites.length := (List.getElem?_eq_some_iff.mp found).1
  have known : (sites.map (·.slot.map Line.connection))[index]? =
      some (site.slot.map Line.connection) := by
    rw [List.getElem?_map, found]
    rfl
  -- Who acquires comes as a new user and then does what the slot allows.
  have came : Reaches ⟨books, sites⟩
      ⟨books, sites.set index ⟨site.slot, .asking false ::ₘ site.users⟩⟩ :=
    (Reaches.stay found).move inside .arrive .nothing
  simp only [pool, Pool.acquire, known, Slot.request_map]
  cases turn : site.slot.request books.limit with
  | take line rest =>
    have taken := came.move inside (.take turn) .nothing
    have counted := taken.move inside .countAcquired .countAcquired
    refine ⟨_, counted, ?_, rfl, rest, line.number, rfl⟩
    simp only [slots_set]
  | connect rest =>
    have reserved := came.move inside (.reserve turn) .nothing
    simp only [Slot.Turn.map]
    rcases answered : Connector.connect books.connector index with ⟨error | connection, connector⟩
    · have refused := reserved.move inside .refuse (.refuse answered)
      obtain ⟨others, told⟩ := refused.notify inside
      have left := told.move inside .leave .leaveRefused
      refine ⟨_, left, ?_⟩
      simp only [slots_set]
      rfl
    · have connected := reserved.move inside .connect (.connect answered)
      have opened := connected.move inside .countOpened .countOpened
      have counted := opened.move inside .countAcquired .countAcquired
      refine ⟨_, counted, ?_, rfl, rest, books.history.card, rfl⟩
      simp only [slots_set]
  | wait =>
    have slept := came.move inside (.sleep turn) .nothing
    refine ⟨_, slept, ?_, rfl⟩
    have unmoved : (sites.map (·.slot.map Line.connection)).set index
        (site.slot.map Line.connection) = sites.map (·.slot.map Line.connection) :=
      (slots_modify found id).trans (List.modify_id ..)
    simp only [slots_set, unmoved]

variable {slot : Slot (Line γ)} {users : Multiset (Stage (Line γ))} {line : Line γ}

/-- A pool takes a connection back in the way of one who ends a loan. -/
theorem release_reaches (found : sites[index]? = some ⟨slot, .holding line ::ₘ users⟩) :
    ∃ after, Reaches ⟨books, sites⟩ after ∧
      after.pool = (pool ⟨books, sites⟩).release ⟨index, line.connection⟩ := by
  have inside : index < sites.length := (List.getElem?_eq_some_iff.mp found).1
  have holds : Reaches ⟨books, sites⟩
      ⟨books, sites.set index ⟨slot, .holding line ::ₘ users⟩⟩ := Reaches.stay found
  have parked := holds.move inside .release .nothing
  obtain ⟨others, told⟩ := parked.notify inside
  have left := told.move inside .leave .leaveEnded
  refine ⟨_, left, ?_⟩
  simp only [pool, Pool.release, slots_set, ← slots_modify found]
  rfl

/-- A pool closes a connection in the way of one who ends a loan by closing it. -/
theorem discard_reaches (found : sites[index]? = some ⟨slot, .holding line ::ₘ users⟩) :
    ∃ after, Reaches ⟨books, sites⟩ after ∧
      after.pool = (pool ⟨books, sites⟩).discard ⟨index, line.connection⟩ := by
  have inside : index < sites.length := (List.getElem?_eq_some_iff.mp found).1
  have holds : Reaches ⟨books, sites⟩
      ⟨books, sites.set index ⟨slot, .holding line ::ₘ users⟩⟩ := Reaches.stay found
  have vacated := holds.move inside .discard .close
  obtain ⟨others, told⟩ := vacated.notify inside
  have left := told.move inside .leave .leaveEnded
  refine ⟨_, left, ?_⟩
  simp only [pool, Pool.discard, slots_set, ← slots_modify found]
  rfl

end Calls

/-- The only connection that may exist is lent, and somebody waits for it. -/
def contended : Traffic Numbered Nat :=
  ⟨⟨⟨1, [], 1, 1⟩, 1, 1, 0, 1, {⟨0, ⟨0, 0⟩⟩}, 0⟩,
    [⟨⟨[], 1⟩, .holding ⟨0, 0⟩ ::ₘ .asleep ::ₘ 0⟩]⟩

theorem contended_reaches : Reaches (start (Numbered.new 1 []) 0) contended := by
  have inside : 0 < [(⟨.empty, 0⟩ : Site (Line Nat))].length := Nat.zero_lt_one
  have began : Reaches (start (Numbered.new 1 []) 0)
      ⟨⟨Numbered.new 1 [], 1, 0, 0, 0, 0, 0⟩, [⟨.empty, 0⟩].set 0 ⟨.empty, 0⟩⟩ := .refl
  have asked := began.move inside .arrive .nothing
  have reserved := asked.move inside (.reserve rfl) .nothing
  have connected := reserved.move inside .connect (.connect rfl)
  have opened := connected.move inside .countOpened .countOpened
  have lent := opened.move inside .countAcquired .countAcquired
  have another := lent.move inside .arrive .nothing
  have slept := another.move inside (.sleep rfl) .nothing
  rw [Multiset.cons_swap] at slept
  exact slept

end Traffic
end MetadataClient
