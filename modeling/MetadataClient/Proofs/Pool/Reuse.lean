import Mathlib.Data.List.Induction
import Mathlib.Order.Bounds.Basic
import MetadataClient.Pool.Numbered
import MetadataClient.Proofs.Pool.Balance

/-! When a pool opens connections. As long as none is closed, a backend has been connected to
exactly as often as its connections were lent at the same time when most of them were, and
whoever asks while connections are idle is lent the one that came back last. -/
namespace MetadataClient

variable {σ γ : Type}

namespace Pool

variable {pool : Pool σ γ} {index : Nat} {connection : γ} {rest : List γ}

/-- The idle connections to a backend, the one that is lent next in front. -/
def shelf (pool : Pool σ γ) (index : Nat) : List γ :=
  (pool.slots[index]?).elim [] Slot.idle

theorem length_shelf (pool : Pool σ γ) (index : Nat) :
    (pool.shelf index).length = pool.idle index := by
  rw [shelf, idle]
  cases pool.slots[index]? <;> rfl

theorem shelf_release {loan : Loan γ} (inside : loan.index < pool.slots.length) :
    (pool.release loan).shelf loan.index = loan.connection :: pool.shelf loan.index := by
  simp only [shelf, release, List.getElem?_modify_eq, List.getElem?_eq_getElem inside]
  rfl

theorem shelf_discard (pool : Pool σ γ) (loan : Loan γ) :
    (pool.discard loan).shelf loan.index = pool.shelf loan.index := by
  simp only [shelf, discard, List.getElem?_modify_eq]
  cases pool.slots[loan.index]? <;> rfl

variable [Connector σ γ]

theorem index_of_acquire {loan : Loan γ} (granted : (pool.acquire index).1.loan? = some loan) :
    loan.index = index := by
  have came := acquire_cases pool index
  generalize pool.acquire index = request at came granted
  cases came with
  | granted =>
    cases granted
    rfl
  | unknown | unreachable | full => cases granted

theorem acquire_of_shelf (idle : pool.shelf index = connection :: rest) :
    ∃ after, pool.acquire index = (.granted ⟨index, connection⟩, after) ∧
      after.shelf index = rest ∧ after.opened = pool.opened := by
  rw [shelf] at idle
  cases found : pool.slots[index]? with
  | none =>
    rw [found] at idle
    cases idle
  | some slot =>
    have inside : index < pool.slots.length := (List.getElem?_eq_some_iff.mp found).1
    rw [found, Option.elim_some] at idle
    simp only [acquire, found, Slot.request, idle]
    refine ⟨_, rfl, ?_, rfl⟩
    simp only [shelf, List.getElem?_set_self inside, Option.elim_some]

/-- Without an idle connection one is opened and lent, or nothing happens. -/
theorem acquire_of_shelf_nil (idle : pool.shelf index = []) :
    (∃ connection after, pool.acquire index = (.granted ⟨index, connection⟩, after) ∧
      after.shelf index = [] ∧ after.opened = pool.opened + 1) ∨
    ∃ reply after, pool.acquire index = (reply, after) ∧ reply.loan? = none ∧
      after.shelf index = [] ∧ after.opened = pool.opened := by
  cases found : pool.slots[index]? with
  | none =>
    simp only [acquire, found]
    exact .inr ⟨_, _, rfl, rfl, idle, rfl⟩
  | some slot =>
    have inside : index < pool.slots.length := (List.getElem?_eq_some_iff.mp found).1
    have none : slot.idle = [] := by
      rwa [shelf, found, Option.elim_some] at idle
    by_cases room : slot.existing < pool.limit
    · simp only [acquire, found, Slot.request, none, room, if_true]
      rcases Connector.connect pool.connector index with ⟨error | connection, connector⟩
      · refine .inr ⟨_, _, rfl, rfl, ?_, rfl⟩
        simp only [shelf, List.getElem?_set_self inside, Option.elim_some, Slot.vacate]
      · refine .inl ⟨_, _, rfl, ?_, rfl⟩
        simp only [shelf, List.getElem?_set_self inside, Option.elim_some]
    · simp only [acquire, found, Slot.request, none, room, if_false]
      exact .inr ⟨_, _, rfl, rfl, idle, rfl⟩

end Pool

/-- One backend of a pool in use. The loans that go on stand with the latest one in front; of
those that were ended by closing their connection only the number is known. -/
structure Lending (σ γ : Type) where
  pool : Pool σ γ
  loans : List (Loan γ)
  discarded : Nat

namespace Lending

/-- What is done with the backend. Who has to wait for a connection asks again later, so the
same call stands for the first request and for any other. A loan is told by its position among
those that go on; if there is none at the position, nothing is done. -/
inductive Call
  | acquire
  | release (position : Nat)
  | discard (position : Nat)

/-- Ends a loan in the given way, if there is one at this position. -/
def finish (lending : Lending σ γ) (position : Nat) (ending : Pool σ γ → Loan γ → Pool σ γ)
    (closed : Nat) : Lending σ γ :=
  match lending.loans[position]? with
  | none => lending
  | some loan =>
    ⟨ending lending.pool loan, lending.loans.eraseIdx position, lending.discarded + closed⟩

section

variable [Connector σ γ]

def call (lending : Lending σ γ) (index : Nat) : Call → Lending σ γ
  | .acquire =>
    let (reply, pool) := lending.pool.acquire index
    { lending with pool, loans := reply.loan?.toList ++ lending.loans }
  | .release position => lending.finish position Pool.release 0
  | .discard position => lending.finish position Pool.discard 1

def after (connector : σ) (limit index : Nat) (calls : List Call) : Lending σ γ :=
  calls.foldl (·.call index) ⟨.new connector limit, [], 0⟩

theorem after_concat (connector : σ) (limit index : Nat) (calls : List Call) (call : Call) :
    after connector limit index (calls ++ [call]) =
      (after connector limit index calls).call index call := by
  rw [after, List.foldl_concat, after]

end

/-! ## Single calls -/

/-- The pool has lent what is held, and all of it is of this backend. -/
structure Settled (lending : Lending σ γ) (limit index : Nat) : Prop where
  balanced : lending.pool.Balanced lending.loans
  lender : ∀ loan ∈ lending.loans, loan.index = index
  limited : lending.pool.limit = limit

/-- What a call does to the shelf, to the loans and to the counts. -/
inductive Moves (lending : Lending σ γ) (index : Nat) : Call → Lending σ γ → Prop
  | reuse {after : Lending σ γ} {connection : γ}
      (shelf : lending.pool.shelf index = connection :: after.pool.shelf index)
      (loans : after.loans = ⟨index, connection⟩ :: lending.loans)
      (opened : after.pool.opened = lending.pool.opened)
      (discarded : after.discarded = lending.discarded) : Moves lending index .acquire after
  | connect {after : Lending σ γ} {connection : γ} (none : lending.pool.shelf index = [])
      (shelf : after.pool.shelf index = [])
      (loans : after.loans = ⟨index, connection⟩ :: lending.loans)
      (opened : after.pool.opened = lending.pool.opened + 1)
      (discarded : after.discarded = lending.discarded) : Moves lending index .acquire after
  | nothing {after : Lending σ γ} {call : Call}
      (shelf : after.pool.shelf index = lending.pool.shelf index)
      (loans : after.loans = lending.loans) (opened : after.pool.opened = lending.pool.opened)
      (discarded : after.discarded = lending.discarded) : Moves lending index call after
  | release {after : Lending σ γ} {position : Nat} {loan : Loan γ}
      (held : lending.loans[position]? = some loan)
      (shelf : after.pool.shelf index = loan.connection :: lending.pool.shelf index)
      (loans : after.loans = lending.loans.eraseIdx position)
      (opened : after.pool.opened = lending.pool.opened)
      (discarded : after.discarded = lending.discarded) :
      Moves lending index (.release position) after
  | discard {after : Lending σ γ} {position : Nat} {loan : Loan γ}
      (held : lending.loans[position]? = some loan)
      (shelf : after.pool.shelf index = lending.pool.shelf index)
      (loans : after.loans = lending.loans.eraseIdx position)
      (opened : after.pool.opened = lending.pool.opened)
      (discarded : after.discarded = lending.discarded + 1) :
      Moves lending index (.discard position) after

def present (lending : Lending σ γ) (index : Nat) : Nat :=
  (lending.pool.shelf index).length + lending.loans.length

variable {lending : Lending σ γ} {limit index : Nat}

section

variable {next : Lending σ γ} {call : Call}

theorem length_eraseIdx_loans {position : Nat} {loan : Loan γ}
    (held : lending.loans[position]? = some loan) :
    (lending.loans.eraseIdx position).length + 1 = lending.loans.length :=
  List.length_eraseIdx_add_one (List.getElem?_eq_some_iff.mp held).1

/-- A connection that was opened stays there until it is closed. -/
theorem Moves.counted (moves : lending.Moves index call next)
    (counted : lending.pool.opened = lending.present index + lending.discarded) :
    next.pool.opened = next.present index + next.discarded := by
  cases moves with
  | reuse shelf loans opened discarded =>
    simp only [present, shelf, List.length_cons] at counted
    simp only [present, loans, opened, discarded, List.length_cons]
    omega
  | connect none shelf loans opened discarded =>
    simp only [present, none] at counted
    simp only [present, shelf, loans, opened, discarded, List.length_cons]
    omega
  | nothing shelf loans opened discarded =>
    simpa only [present, shelf, loans, opened, discarded] using counted
  | release held shelf loans opened discarded =>
    have fewer := length_eraseIdx_loans held
    simp only [present, shelf, loans, opened, discarded, List.length_cons] at counted ⊢
    omega
  | discard held shelf loans opened discarded =>
    have fewer := length_eraseIdx_loans held
    simp only [present, shelf, loans, opened, discarded] at counted ⊢
    omega

/-- There is a connection more only if all are lent then, since another one is opened only while
none is idle. -/
theorem Moves.present_le (moves : lending.Moves index call next) :
    next.present index ≤ max next.loans.length (lending.present index) := by
  cases moves with
  | reuse shelf loans =>
    simp only [present, shelf, loans, List.length_cons]
    omega
  | connect none shelf loans =>
    simp only [present, shelf, List.length_nil, Nat.zero_add]
    exact Nat.le_max_left ..
  | nothing shelf loans =>
    simp only [present, shelf, loans]
    exact Nat.le_max_right ..
  | release held shelf loans =>
    have fewer := length_eraseIdx_loans held
    simp only [present, shelf, loans, List.length_cons]
    omega
  | discard held shelf loans =>
    have fewer := length_eraseIdx_loans held
    simp only [present, shelf, loans]
    omega

theorem Moves.opened_le (moves : lending.Moves index call next) :
    lending.pool.opened ≤ next.pool.opened := by
  cases moves with
  | connect none shelf loans opened => exact opened ▸ Nat.le_succ _
  | reuse shelf loans opened | nothing shelf loans opened | release held shelf loans opened
  | discard held shelf loans opened => exact opened.ge

end

/-- All places of the backend are those of idle connections and of loans. -/
theorem Settled.present_le (settled : lending.Settled limit index) :
    lending.present index ≤ limit := by
  obtain ⟨balanced, lender, limited⟩ := settled
  have all : Pool.lent lending.loans index = lending.loans.length := by
    rw [Pool.lent, List.countP_eq_length]
    intro loan held
    exact beq_iff_eq.mpr (lender loan held)
  rw [present, Pool.shelf]
  cases found : lending.pool.slots[index]? with
  | none =>
    have nobody : lending.loans = [] := by
      rw [List.eq_nil_iff_forall_not_mem]
      intro loan held
      have inside := balanced.known loan held
      rw [lender loan held] at inside
      exact absurd (List.getElem?_eq_none_iff.mp found) (Nat.not_le.mpr inside)
    rw [nobody]
    exact Nat.zero_le _
  | some slot =>
    obtain ⟨counted, bounded⟩ := balanced.settled index slot found
    rw [all] at counted
    rw [Option.elim_some, counted, ← limited]
    exact bounded

theorem Settled.held (settled : lending.Settled limit index) {position : Nat} {loan : Loan γ}
    (held : lending.loans[position]? = some loan) :
    loan.index = index ∧ index < lending.pool.slots.length := by
  have among := List.mem_of_getElem? held
  have lender := settled.lender loan among
  exact ⟨lender, lender ▸ settled.balanced.known loan among⟩

theorem Settled.finish (settled : lending.Settled limit index) (position : Nat)
    {ending : Pool σ γ → Loan γ → Pool σ γ}
    (ends : ∀ {pool loan loans}, Pool.Balanced pool (loan :: loans) →
      (ending pool loan).Balanced loans)
    (keeps : ∀ pool loan, Pool.Keeps pool (ending pool loan)) (closed : Nat) :
    (lending.finish position ending closed).Settled limit index := by
  rw [Lending.finish]
  split
  next => exact settled
  next loan held =>
    obtain ⟨inside, rfl⟩ := List.getElem?_eq_some_iff.mp held
    refine ⟨ends ?_, ?_, (keeps _ _).limit.trans settled.limited⟩
    · exact settled.balanced.perm (List.getElem_cons_eraseIdx_perm inside).symm
    · intro other kept
      exact settled.lender other (List.mem_of_mem_eraseIdx kept)

variable [Connector σ γ]

theorem Settled.call (settled : lending.Settled limit index) (call : Call) :
    (lending.call index call).Settled limit index := by
  cases call with
  | acquire =>
    have keeps := Pool.acquire_keeps lending.pool index
    refine ⟨Pool.acquire_balanced settled.balanced index, ?_, keeps.limit.trans settled.limited⟩
    intro loan held
    rcases List.mem_append.mp held with new | old
    · exact Pool.index_of_acquire (Option.mem_toList.mp new)
    · exact settled.lender loan old
  | release position => exact settled.finish position Pool.release_balanced Pool.release_keeps 0
  | discard position => exact settled.finish position Pool.discard_balanced Pool.discard_keeps 1

theorem Settled.moves (settled : lending.Settled limit index) (call : Call) :
    lending.Moves index call (lending.call index call) := by
  cases call with
  | acquire =>
    cases idle : lending.pool.shelf index with
    | cons connection rest =>
      obtain ⟨pool, granted, shelf, opened⟩ := Pool.acquire_of_shelf idle
      rw [Lending.call, granted]
      exact .reuse (idle.trans (shelf ▸ rfl)) rfl opened rfl
    | nil =>
      rcases Pool.acquire_of_shelf_nil idle with
        ⟨connection, pool, granted, shelf, opened⟩ | ⟨reply, pool, denied, none, shelf, opened⟩
      · rw [Lending.call, granted]
        exact .connect idle shelf rfl opened rfl
      · rw [Lending.call, denied]
        refine .nothing (shelf.trans idle.symm) ?_ opened rfl
        simp only [none, Option.toList_none, List.nil_append]
  | release position =>
    rw [Lending.call, Lending.finish]
    split
    next => exact .nothing rfl rfl rfl rfl
    next loan held =>
      obtain ⟨rfl, inside⟩ := settled.held held
      exact .release held (Pool.shelf_release inside) rfl rfl rfl
  | discard position =>
    rw [Lending.call, Lending.finish]
    split
    next => exact .nothing rfl rfl rfl rfl
    next loan held =>
      obtain ⟨rfl, -⟩ := settled.held held
      exact .discard held (Pool.shelf_discard _ loan) rfl rfl rfl

/-! ## Runs -/

variable (connector : σ) (limit index : Nat) (calls : List Call)

theorem after_settled : (after connector limit index calls).Settled (max limit 1) index := by
  induction calls using List.reverseRecOn with
  | nil => exact ⟨Pool.new_balanced connector limit, nofun, rfl⟩
  | append_singleton calls call settled =>
    rw [after_concat]
    exact settled.call call

theorem after_moves (call : Call) :
    (after connector limit index calls).Moves index call
      (after connector limit index (calls ++ [call])) := by
  rw [after_concat]
  exact (after_settled connector limit index calls).moves call

theorem shelf_new : (after connector limit index []).pool.shelf index = [] := by
  simp only [after, List.foldl_nil, Pool.shelf, Pool.new, List.getElem?_replicate]
  split <;> rfl

theorem opened_eq : (after connector limit index calls).pool.opened =
    (after connector limit index calls).present index +
      (after connector limit index calls).discarded := by
  induction calls using List.reverseRecOn with
  | nil =>
    rw [present, shelf_new]
    rfl
  | append_singleton calls call counted =>
    exact (after_moves connector limit index calls call).counted counted

/-- How many loans went on at the same time, at any moment so far. -/
def heldSoFar : Set Nat :=
  {held | ∃ earlier, earlier <+: calls ∧ (after connector limit index earlier).loans.length = held}

theorem heldSoFar_nil : heldSoFar connector limit index [] = {0} := by
  ext held
  simp only [heldSoFar, List.prefix_nil, exists_eq_left, Set.mem_ofPred_eq, Set.mem_singleton_iff]
  exact eq_comm

theorem heldSoFar_concat (call : Call) :
    heldSoFar connector limit index (calls ++ [call]) =
      insert (after connector limit index (calls ++ [call])).loans.length
        (heldSoFar connector limit index calls) := by
  ext held
  simp only [heldSoFar, List.prefix_concat_iff, or_and_right, exists_or, exists_eq_left,
    Set.mem_ofPred_eq, Set.mem_insert_iff]
  exact or_congr_left eq_comm

/-- There are no more connections than were lent at the same time once, and so many were opened
at least. -/
theorem exists_most : ∃ most, IsGreatest (heldSoFar connector limit index calls) most ∧
    (after connector limit index calls).present index ≤ most ∧
    most ≤ (after connector limit index calls).pool.opened := by
  induction calls using List.reverseRecOn with
  | nil =>
    refine ⟨0, ?_, ?_, Nat.zero_le _⟩
    · rw [heldSoFar_nil]
      exact isGreatest_singleton
    · rw [present, shelf_new]
      rfl
  | append_singleton calls call known =>
    obtain ⟨most, greatest, above, below⟩ := known
    have moves := after_moves connector limit index calls call
    have counted := opened_eq connector limit index (calls ++ [call])
    refine ⟨max (after connector limit index (calls ++ [call])).loans.length most, ?_, ?_, ?_⟩
    · rw [heldSoFar_concat]
      exact greatest.insert _
    · exact moves.present_le.trans (max_le (le_max_left ..) (above.trans (le_max_right ..)))
    · refine max_le ?_ (below.trans moves.opened_le)
      rw [present] at counted
      omega

/-! ## The order of idle connections -/

variable {connection : γ} {below : List γ}

/-- The connection came back while exactly these were idle, and all of them have been idle ever
since, so it came back later than they did. -/
def RestsOn (connection : γ) (below : List γ) : Prop :=
  ∃ earlier position later loan, calls = earlier ++ .release position :: later ∧
    (after connector limit index earlier).loans[position]? = some loan ∧
    loan.connection = connection ∧
    (after connector limit index earlier).pool.shelf index = below ∧
    ∀ between, between <+: later → connection :: below <:+
      (after connector limit index (earlier ++ .release position :: between)).pool.shelf index

variable {connector limit index calls}

theorem RestsOn.concat (rests : RestsOn connector limit index calls connection below) {call : Call}
    (still : connection :: below <:+
      (after connector limit index (calls ++ [call])).pool.shelf index) :
    RestsOn connector limit index (calls ++ [call]) connection below := by
  obtain ⟨earlier, position, later, loan, rfl, held, came, idle, since⟩ := rests
  rw [List.append_assoc, List.cons_append] at still ⊢
  refine ⟨earlier, position, later ++ [call], loan, rfl, held, came, idle, ?_⟩
  intro between began
  rcases List.prefix_concat_iff.mp began with rfl | before
  · exact still
  · exact since between before

theorem restsOn_of_suffix (idle : connection :: below <:+
    (after connector limit index calls).pool.shelf index) :
    RestsOn connector limit index calls connection below := by
  induction calls using List.reverseRecOn with
  | nil =>
    rw [shelf_new] at idle
    cases List.suffix_nil.mp idle
  | append_singleton calls call known =>
    cases after_moves connector limit index calls call with
    | reuse shelf =>
      refine (known ?_).concat idle
      rw [shelf]
      exact idle.trans (List.suffix_cons ..)
    | connect none shelf =>
      rw [shelf] at idle
      cases List.suffix_nil.mp idle
    | nothing shelf | discard held shelf =>
      exact (known (shelf ▸ idle)).concat idle
    | @release _ position loan held shelf =>
      -- Only the one that has just come back was not idle before.
      rw [shelf, List.suffix_cons_iff] at idle
      rcases idle with same | before
      · obtain ⟨rfl, rfl⟩ := List.cons.inj same
        refine ⟨calls, position, [], loan, rfl, held, rfl, rfl, ?_⟩
        intro between began
        obtain rfl := List.prefix_nil.mp began
        exact shelf ▸ List.suffix_rfl
      · refine (known before).concat ?_
        rw [shelf]
        exact before.trans (List.suffix_cons ..)

/-- A backend is connected to only when this must be. As long as no connection is closed, so many
were opened as were held at the same time when most of them were, and those that are closed can
only add as many again. Who asks while connections are idle is lent the one of them that came back
last. For none of this does it matter whether an attempt to connect has failed. -/
theorem opened_eq_most_held (connector : σ) (limit index : Nat) (calls : List Call) :
    let lending := after connector limit index calls
    ∃ most, IsGreatest (heldSoFar connector limit index calls) most ∧
      lending.pool.opened ≤ most + lending.discarded ∧
      (lending.discarded = 0 → lending.pool.opened = most ∧
        lending.pool.opened ≤ max limit 1 ∧
        lending.pool.idle index + lending.loans.length = lending.pool.opened) ∧
      (0 < lending.pool.idle index → ∃ connection below pool,
        lending.pool.acquire index = (.granted ⟨index, connection⟩, pool) ∧
        pool.opened = lending.pool.opened ∧
        lending.pool.shelf index = connection :: below ∧
        RestsOn connector limit index calls connection below) := by
  dsimp only
  obtain ⟨most, greatest, above, below⟩ := exists_most connector limit index calls
  have counted := opened_eq connector limit index calls
  have bounded := (after_settled connector limit index calls).present_le
  refine ⟨most, greatest, ?_, ?_, ?_⟩
  · rw [counted]
    exact Nat.add_le_add_right above _
  · intro kept
    rw [kept, Nat.add_zero] at counted
    refine ⟨(counted.trans_le above).antisymm below, counted.trans_le bounded, ?_⟩
    rw [counted, present, Pool.length_shelf]
  · intro some
    rw [← Pool.length_shelf, List.length_pos_iff_exists_cons] at some
    obtain ⟨connection, rest, idle⟩ := some
    obtain ⟨pool, granted, -, opened⟩ := Pool.acquire_of_shelf idle
    exact ⟨connection, rest, pool, granted, opened, idle, restsOn_of_suffix (idle ▸ List.suffix_rfl)⟩

def twoReturned : List Call :=
  [.acquire, .acquire, .acquire, .release 2, .release 0]

/-- Of the two that have come back, the later one is lent next. -/
theorem opened_eq_most_held_returned :
    let lending := after (Numbered.new 1 []) 4 0 twoReturned
    lending.discarded = 0 ∧ 0 < lending.pool.idle 0 ∧ lending.pool.opened = 3 ∧
      IsGreatest (heldSoFar (Numbered.new 1 []) 4 0 twoReturned) 3 ∧
      ∃ pool, lending.pool.acquire 0 = (.granted ⟨0, 2⟩, pool) ∧
        RestsOn (Numbered.new 1 []) 4 0 twoReturned 2 [0] := by
  dsimp only
  obtain ⟨most, greatest, -, kept, reused⟩ :=
    opened_eq_most_held (Numbered.new 1 []) 4 0 twoReturned
  have idle : 0 < (after (Numbered.new 1 []) 4 0 twoReturned).pool.idle 0 := by decide
  obtain ⟨connection, below, pool, granted, -, shelf, rests⟩ := reused idle
  obtain ⟨rfl, rfl⟩ : 2 = connection ∧ [0] = below := List.cons.inj shelf
  obtain rfl : 3 = most := (kept rfl).1
  exact ⟨rfl, idle, rfl, greatest, pool, granted, rests⟩

end Lending
end MetadataClient
