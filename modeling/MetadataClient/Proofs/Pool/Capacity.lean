import MetadataClient.Connection
import Mathlib.Tactic.Common

/-! The slot of the metadata backend accounts for every connection. As long as fewer are
lent than may exist, a request for one is granted at once. -/
namespace MetadataClient
namespace Pool

/-- Of the connections to the metadata backend so many are lent and the others idle, and
there are not more than there may be. -/
def Accounts (pool : MetadataPool) (lent : Nat) : Prop :=
  ∃ slot, pool.slots[metadataIndex]? = some slot ∧
    slot.existing = slot.idle.length + lent ∧ slot.existing ≤ pool.limit

theorem new_accounts (servers : List String) (limit : Nat) :
    (new (Servers.new servers) limit : MetadataPool).Accounts 0 := by
  refine ⟨.empty, ?_, rfl, Nat.zero_le _⟩
  have positive : 0 < Connector.backends (Servers.new servers) := by
    change 0 < max servers.length 1
    omega
  simp [new, metadataIndex, positive]

/-- The metadata backend exists, so it can always be connected to. -/
theorem connect_metadata (servers : Servers) :
    ∃ connection after, Connector.connect servers metadataIndex = (.ok connection, after) := by
  have known : ¬ servers.backends ≤ metadataIndex := by
    simp only [Servers.backends, metadataIndex]
    omega
  exact ⟨_, _, if_neg known⟩

theorem acquire_granted {pool : MetadataPool} {lent : Nat} (accounts : pool.Accounts lent)
    (room : lent < pool.limit) :
    ∃ loan after, pool.acquire metadataIndex = (.granted loan, after) ∧
      loan.index = metadataIndex ∧ after.Accounts (lent + 1) ∧ after.limit = pool.limit := by
  obtain ⟨slot, found, counted, bounded⟩ := accounts
  have inside : metadataIndex < pool.slots.length := (List.getElem?_eq_some_iff.mp found).1
  simp only [acquire, found, Slot.request]
  cases idle : slot.idle with
  | cons connection rest =>
    refine ⟨_, _, rfl, rfl, ⟨{ slot with idle := rest }, ?_, ?_, bounded⟩, rfl⟩
    · simp only [List.getElem?_set_self inside]
    · simp only [idle, List.length_cons] at counted
      simp only
      omega
  | nil =>
    rw [idle, List.length_nil] at counted
    have below : slot.existing < pool.limit := by omega
    obtain ⟨connection, servers, connected⟩ := connect_metadata pool.connector
    simp only [below, if_true, connected]
    refine ⟨_, _, rfl, rfl, ⟨{ slot with existing := slot.existing + 1 }, ?_, ?_, below⟩, rfl⟩
    · simp only [List.getElem?_set_self inside, idle]
    · simp only [idle, List.length_nil]
      omega

theorem lent_le_limit {pool : MetadataPool} {lent : Nat} (accounts : pool.Accounts lent) :
    lent ≤ pool.limit := by
  obtain ⟨slot, -, counted, bounded⟩ := accounts
  omega

/-- Once as many are lent as may exist, nobody gets another one. -/
theorem acquire_waiting {pool : MetadataPool} (accounts : pool.Accounts pool.limit) :
    pool.acquire metadataIndex = (.waiting, pool) := by
  obtain ⟨slot, found, counted, bounded⟩ := accounts
  have idle : slot.idle = [] := List.length_eq_zero_iff.mp (by omega)
  have full : ¬ slot.existing < pool.limit := by omega
  simp only [acquire, found, Slot.request, idle, full, if_false]

theorem release_accounts {pool : MetadataPool} {lent : Nat} {loan : Loan Connection}
    (accounts : pool.Accounts (lent + 1)) (lender : loan.index = metadataIndex) :
    (pool.release loan).Accounts lent := by
  obtain ⟨slot, found, counted, bounded⟩ := accounts
  refine ⟨slot.park loan.connection, ?_, ?_, bounded⟩
  · simp only [release, lender, List.getElem?_modify_eq, found]
    rfl
  · simp only [Slot.park, List.length_cons]
    omega

end Pool
end MetadataClient
