import MetadataClient.Error

/-! A pool lends connections to backends. Each backend has a slot that keeps returned
connections for the next borrower and counts all that exist, so that never more than
a limit exist at once; who finds the limit reached has to wait. -/
namespace MetadataClient

/-- The connections to one backend. Those that nobody holds are idle, the last one returned in
front. Lent ones exist, too, and those that are being opened. -/
structure Slot (γ : Type) where
  idle : List γ
  existing : Nat

namespace Slot

variable {γ : Type}

def empty : Slot γ :=
  ⟨[], 0⟩

/-- What a borrower is told: take an idle connection, open one, or wait. The slot is
what the borrower leaves behind. -/
inductive Turn (γ : Type)
  | take (connection : γ) (slot : Slot γ)
  | connect (slot : Slot γ)
  | wait

/-- An idle connection goes before a new one. A new one is counted before it exists. -/
def request (limit : Nat) (slot : Slot γ) : Turn γ :=
  match slot.idle with
  | connection :: rest => .take connection { slot with idle := rest }
  | [] =>
    if slot.existing < limit then .connect { slot with existing := slot.existing + 1 }
    else .wait

def park (slot : Slot γ) (connection : γ) : Slot γ :=
  { slot with idle := connection :: slot.idle }

/-- A connection was closed, or could not be opened. -/
def vacate (slot : Slot γ) : Slot γ :=
  { slot with existing := slot.existing - 1 }

end Slot

/-- Opens connections of type `γ` to numbered backends, in a state `σ`. -/
class Connector (σ : Type) (γ : outParam Type) where
  backends : σ → Nat
  connect : σ → Nat → Except Error γ × σ

structure Pool (σ γ : Type) where
  connector : σ
  slots : List (Slot γ)
  limit : Nat
  acquired : Nat
  released : Nat
  opened : Nat

structure Loan (γ : Type) where
  index : Nat
  connection : γ

/-- What becomes of a request for a connection. It is refused if there is no such backend, and
has to wait if all connections that may exist are lent. -/
inductive Reply (γ : Type)
  | granted (loan : Loan γ)
  | refused (index : Nat)
  | unreachable (index : Nat) (error : Error)
  | waiting

namespace Reply

variable {γ : Type}

def error? : Reply γ → Option Error
  | granted _ => none
  | refused index => some (.backendNotFound index)
  | unreachable _ error => some error
  | waiting => none

def warnings : Reply γ → List String
  | unreachable index error =>
    ["Failed to connect to backend " ++ toString index ++ ": " ++ error.message]
  | _ => []

end Reply

def Loan.description {γ : Type} (loan : Loan γ) : String :=
  "PooledConnection \x7b index: BackendIndex(" ++ toString loan.index ++ "), .. \x7d"

namespace Pool

variable {σ γ : Type}

/-- A pool without connections. At least one may exist to each backend. -/
def new [Connector σ γ] (connector : σ) (limit : Nat) : Pool σ γ :=
  ⟨connector, List.replicate (Connector.backends connector) .empty, max limit 1, 0, 0, 0⟩

def acquire [Connector σ γ] (pool : Pool σ γ) (index : Nat) : Reply γ × Pool σ γ :=
  match pool.slots[index]? with
  | none => (.refused index, pool)
  | some slot =>
    match slot.request pool.limit with
    | .take connection rest =>
      (.granted ⟨index, connection⟩,
        { pool with slots := pool.slots.set index rest, acquired := pool.acquired + 1 })
    | .connect rest =>
      match Connector.connect pool.connector index with
      | (.ok connection, connector) =>
        (.granted ⟨index, connection⟩,
          { pool with
            connector, slots := pool.slots.set index rest,
            acquired := pool.acquired + 1, opened := pool.opened + 1 })
      | (.error error, connector) =>
        (.unreachable index error,
          { pool with connector, slots := pool.slots.set index rest.vacate })
    | .wait => (.waiting, pool)

def release (pool : Pool σ γ) (loan : Loan γ) : Pool σ γ :=
  { pool with
    slots := pool.slots.modify loan.index (·.park loan.connection)
    released := pool.released + 1 }

def discard (pool : Pool σ γ) (loan : Loan γ) : Pool σ γ :=
  { pool with
    slots := pool.slots.modify loan.index .vacate
    released := pool.released + 1 }

def backends (pool : Pool σ γ) : Nat :=
  pool.slots.length

def idle (pool : Pool σ γ) (index : Nat) : Nat :=
  (pool.slots[index]?).elim 0 (·.idle.length)

def inUse (pool : Pool σ γ) : Nat :=
  pool.acquired - pool.released

end Pool
end MetadataClient
