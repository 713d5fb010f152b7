import MetadataClient.Entries
import MetadataClient.Pool.Basic

/-! A desk lends the connections of a pool to holders, who go by name. A request that
has to wait is answered as soon as a connection to its backend comes free. -/
namespace MetadataClient

structure Desk (σ γ : Type) where
  pool : Pool σ γ
  loans : NameMap (Loan γ)
  waiting : Option (String × Nat)

namespace Desk

variable {σ γ : Type}

def new [Connector σ γ] (connector : σ) (limit : Nat) : Desk σ γ :=
  ⟨.new connector limit, .empty, none⟩

/-- Hands a loan over. What the name held before goes back to the pool. -/
def hand (desk : Desk σ γ) (holder : String) (loan : Loan γ) : Desk σ γ :=
  let pool := (desk.loans.find? holder).elim desk.pool desk.pool.release
  { desk with pool, loans := desk.loans.insert holder loan }

def request [Connector σ γ] (desk : Desk σ γ) (holder : String) (index : Nat) :
    Reply γ × Desk σ γ :=
  let (reply, pool) := desk.pool.acquire index
  let desk := { desk with pool }
  match reply with
  | .granted loan => (reply, desk.hand holder loan)
  | .waiting => (reply, { desk with waiting := some (holder, index) })
  | _ => (reply, desk)

/-- Asks again for the one who waits. Tells who it was and the answer, unless the wait
goes on. -/
def serve [Connector σ γ] (desk : Desk σ γ) : Option (String × Reply γ) × Desk σ γ :=
  match desk.waiting with
  | none => (none, desk)
  | some (holder, index) =>
    match { desk with waiting := none }.request holder index with
    | (.waiting, after) => (none, after)
    | (reply, after) => (some (holder, reply), after)

/-- Asks for a connection; what the holder gives back for it may serve who waits. -/
def acquire [Connector σ γ] (desk : Desk σ γ) (holder : String) (index : Nat) :
    Reply γ × Option (String × Reply γ) × Desk σ γ :=
  match desk.request holder index with
  | (.waiting, after) => (.waiting, none, after)
  | (reply, after) => (reply, after.serve)

def finish [Connector σ γ] (desk : Desk σ γ) (holder : String)
    (ending : Pool σ γ → Loan γ → Pool σ γ) : Option (Option (String × Reply γ) × Desk σ γ) :=
  (desk.loans.find? holder).map fun loan =>
    { desk with pool := ending desk.pool loan, loans := desk.loans.erase holder }.serve

def release [Connector σ γ] (desk : Desk σ γ) (holder : String) :
    Option (Option (String × Reply γ) × Desk σ γ) :=
  desk.finish holder Pool.release

def discard [Connector σ γ] (desk : Desk σ γ) (holder : String) :
    Option (Option (String × Reply γ) × Desk σ γ) :=
  desk.finish holder Pool.discard

def replace (desk : Desk σ γ) (holder : String) (connection : γ) : Option (Desk σ γ) :=
  (desk.loans.find? holder).map fun loan =>
    { desk with loans := desk.loans.insert holder { loan with connection } }

end Desk
end MetadataClient
