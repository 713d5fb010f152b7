import Mathlib.Data.List.Perm.Basic
import MetadataClient.Proofs.Pool.Capacity

/-! What a pool owes to those who hold its connections. Every connection that exists is idle
or lent, and every loan that was granted and has not come back is in somebody's hands. -/
namespace MetadataClient

variable {σ γ : Type}

/-- All connections of the slot are idle or lent, and they are not too many. -/
structure Slot.Settled (slot : Slot γ) (lent limit : Nat) : Prop where
  counted : slot.idle.length + lent = slot.existing
  bounded : slot.existing ≤ limit

theorem Slot.Settled.request {slot : Slot γ} {lent limit : Nat} (settled : slot.Settled lent limit) :
    match slot.request limit with
    | .take _ rest => rest.Settled (lent + 1) limit
    | .connect rest => rest.Settled (lent + 1) limit ∧ rest.vacate = slot
    | .wait => True := by
  obtain ⟨counted, bounded⟩ := settled
  rcases slot with ⟨_ | ⟨connection, rest⟩, existing⟩
  · rw [Slot.request]
    by_cases room : existing < limit
    · simp only [room, if_true]
      refine ⟨⟨?_, room⟩, rfl⟩
      simp only at counted ⊢
      omega
    · simp only [room, if_false]
  · refine ⟨?_, bounded⟩
    simp only [List.length_cons] at counted ⊢
    omega

def Reply.loan? : Reply γ → Option (Loan γ)
  | granted loan => some loan
  | _ => none

namespace Pool

variable {pool after : Pool σ γ} {loan : Loan γ} {loans others : List (Loan γ)}

def lent (loans : List (Loan γ)) (index : Nat) : Nat :=
  loans.countP (·.index == index)

theorem lent_cons (loan : Loan γ) (loans : List (Loan γ)) (index : Nat) :
    lent (loan :: loans) index = lent loans index + if loan.index = index then 1 else 0 := by
  simp [lent, List.countP_cons]

/-- The connections that the pool counts as lent are exactly these. -/
structure Balanced (pool : Pool σ γ) (loans : List (Loan γ)) : Prop where
  known : ∀ loan ∈ loans, loan.index < pool.slots.length
  settled : ∀ (index : Nat) (slot : Slot γ), pool.slots[index]? = some slot →
    slot.Settled (lent loans index) pool.limit
  total : pool.acquired = pool.released + loans.length

theorem Balanced.perm (balanced : pool.Balanced loans) (same : loans.Perm others) :
    pool.Balanced others := by
  obtain ⟨known, settled, total⟩ := balanced
  refine ⟨?_, ?_, same.length_eq ▸ total⟩
  · intro loan held
    exact known loan (same.mem_iff.mpr held)
  · intro index slot found
    rw [lent, ← same.countP_eq]
    exact settled index slot found

theorem Balanced.inUse_eq (balanced : pool.Balanced loans) : pool.inUse = loans.length := by
  rw [inUse, balanced.total, Nat.add_sub_cancel_left]

theorem new_balanced [Connector σ γ] (connector : σ) (limit : Nat) :
    (new connector limit : Pool σ γ).Balanced [] := by
  refine ⟨by simp, ?_, rfl⟩
  intro index slot found
  rw [new, List.getElem?_replicate] at found
  split at found
  · cases found
    exact ⟨rfl, Nat.zero_le _⟩
  · contradiction

/-- What never changes: the number of backends and the limit. -/
structure Keeps (pool after : Pool σ γ) : Prop where
  backends : after.slots.length = pool.slots.length
  limit : after.limit = pool.limit

theorem Keeps.refl (pool : Pool σ γ) : pool.Keeps pool :=
  ⟨rfl, rfl⟩

theorem Keeps.trans {last : Pool σ γ} (first : pool.Keeps after) (second : after.Keeps last) :
    pool.Keeps last :=
  ⟨second.backends.trans first.backends, second.limit.trans first.limit⟩

/-! ## Slots -/

/-- One slot changes together with what is lent of its backend. -/
theorem settled_modify {slots : List (Slot γ)} {limit : Nat} {change : Slot γ → Slot γ}
    (settled : ∀ (index : Nat) (slot : Slot γ), slots[index]? = some slot →
      slot.Settled (lent loans index) limit) (index : Nat)
    (apart : ∀ other, other ≠ index → lent others other = lent loans other)
    (here : ∀ slot, slots[index]? = some slot → slot.Settled (lent loans index) limit →
      (change slot).Settled (lent others index) limit) :
    ∀ (other : Nat) (slot : Slot γ), (slots.modify index change)[other]? = some slot →
      slot.Settled (lent others other) limit := by
  intro other slot found
  rw [List.getElem?_modify] at found
  obtain ⟨before, stood, rfl⟩ := Option.map_eq_some_iff.mp found
  by_cases same : index = other
  · subst same
    simp only [if_true]
    exact here before stood (settled index before stood)
  · simp only [same, if_false]
    rw [apart other (Ne.symm same)]
    exact settled other before stood

theorem lent_apart (loan : Loan γ) (loans : List (Loan γ)) (other : Nat)
    (different : other ≠ loan.index) : lent (loan :: loans) other = lent loans other := by
  rw [lent_cons, if_neg (Ne.symm different), Nat.add_zero]

theorem lent_here (loan : Loan γ) (loans : List (Loan γ)) :
    lent (loan :: loans) loan.index = lent loans loan.index + 1 := by
  rw [lent_cons, if_pos rfl]

/-! ## Lending -/

theorem Balanced.lend (balanced : pool.Balanced loans) (loan : Loan γ) {changed : Slot γ}
    (inside : loan.index < pool.slots.length)
    (settled : changed.Settled (lent loans loan.index + 1) pool.limit)
    (slots : after.slots = pool.slots.set loan.index changed) (limit : after.limit = pool.limit)
    (acquired : after.acquired = pool.acquired + 1) (released : after.released = pool.released) :
    after.Balanced (loan :: loans) := by
  refine ⟨?_, ?_, ?_⟩
  · rw [slots, List.length_set, List.forall_mem_cons]
    exact ⟨inside, balanced.known⟩
  · rw [slots, limit, List.set_eq_modify]
    refine settled_modify balanced.settled loan.index (lent_apart loan loans) ?_
    intro _ _ _
    rwa [lent_here]
  · rw [acquired, released, balanced.total, List.length_cons, Nat.add_assoc]

theorem Balanced.settle (balanced : pool.Balanced (loan :: loans)) {change : Slot γ → Slot γ}
    (settled : ∀ slot : Slot γ, slot.Settled (lent loans loan.index + 1) pool.limit →
      (change slot).Settled (lent loans loan.index) pool.limit)
    (slots : after.slots = pool.slots.modify loan.index change) (limit : after.limit = pool.limit)
    (acquired : after.acquired = pool.acquired) (released : after.released = pool.released + 1) :
    after.Balanced loans := by
  refine ⟨?_, ?_, ?_⟩
  · rw [slots, List.length_modify]
    exact fun other held => balanced.known other (List.mem_cons_of_mem _ held)
  · rw [slots, limit]
    refine settled_modify balanced.settled loan.index ?_ ?_
    · intro other different
      exact (lent_apart loan loans other different).symm
    · intro slot _ before
      rw [lent_here] at before
      exact settled slot before
  · rw [acquired, released, balanced.total, List.length_cons]
    omega

theorem release_balanced (balanced : pool.Balanced (loan :: loans)) :
    (pool.release loan).Balanced loans := by
  refine balanced.settle ?_ rfl rfl rfl rfl
  rintro slot ⟨counted, bounded⟩
  refine ⟨?_, bounded⟩
  rw [Slot.park, List.length_cons, ← counted]
  omega

theorem discard_balanced (balanced : pool.Balanced (loan :: loans)) :
    (pool.discard loan).Balanced loans := by
  refine balanced.settle ?_ rfl rfl rfl rfl
  rintro slot ⟨counted, bounded⟩
  refine ⟨?_, Nat.le_trans (Nat.sub_le _ _) bounded⟩
  simp only [Slot.vacate]
  omega

theorem release_keeps (pool : Pool σ γ) (loan : Loan γ) : pool.Keeps (pool.release loan) :=
  ⟨List.length_modify .., rfl⟩

theorem discard_keeps (pool : Pool σ γ) (loan : Loan γ) : pool.Keeps (pool.discard loan) :=
  ⟨List.length_modify .., rfl⟩

section

variable [Connector σ γ]

inductive Acquires (pool : Pool σ γ) (index : Nat) : Reply γ × Pool σ γ → Prop
  | unknown (outside : pool.slots[index]? = none) : Acquires pool index (.refused index, pool)
  | granted {slot rest : Slot γ} {connection : γ} {after : Pool σ γ}
      (found : pool.slots[index]? = some slot)
      (asked : slot.request pool.limit = .take connection rest ∨
        slot.request pool.limit = .connect rest)
      (slots : after.slots = pool.slots.set index rest) (limit : after.limit = pool.limit)
      (acquired : after.acquired = pool.acquired + 1) (released : after.released = pool.released) :
      Acquires pool index (.granted ⟨index, connection⟩, after)
  | unreachable {slot rest : Slot γ} {error : Error} {after : Pool σ γ}
      (found : pool.slots[index]? = some slot) (asked : slot.request pool.limit = .connect rest)
      (slots : after.slots = pool.slots.set index rest.vacate) (limit : after.limit = pool.limit)
      (acquired : after.acquired = pool.acquired) (released : after.released = pool.released) :
      Acquires pool index (.unreachable index error, after)
  | full {slot : Slot γ} (found : pool.slots[index]? = some slot)
      (asked : slot.request pool.limit = .wait) : Acquires pool index (.waiting, pool)

theorem acquire_cases (pool : Pool σ γ) (index : Nat) :
    pool.Acquires index (pool.acquire index) := by
  rw [acquire]
  cases found : pool.slots[index]? with
  | none => exact .unknown found
  | some slot =>
    simp only
    cases asked : slot.request pool.limit with
    | take connection rest => exact .granted found (.inl asked) rfl rfl rfl rfl
    | connect rest =>
      simp only
      rcases Connector.connect pool.connector index with ⟨error | connection, connector⟩
      · exact .unreachable found asked rfl rfl rfl rfl
      · exact .granted found (.inr asked) rfl rfl rfl rfl
    | wait => exact .full found asked

theorem acquire_balanced (balanced : pool.Balanced loans) (index : Nat) :
    (pool.acquire index).2.Balanced ((pool.acquire index).1.loan?.toList ++ loans) := by
  have came := acquire_cases pool index
  generalize pool.acquire index = request at came ⊢
  cases came with
  | unknown outside => exact balanced
  | @granted slot rest connection after found asked slots limit acquired released =>
    have inside : index < pool.slots.length := (List.getElem?_eq_some_iff.mp found).1
    have turn := (balanced.settled index slot found).request
    have settled : rest.Settled (lent loans index + 1) pool.limit := by
      rcases asked with asked | asked
      · rwa [asked] at turn
      · rw [asked] at turn
        exact turn.1
    exact balanced.lend ⟨index, connection⟩ inside settled slots limit acquired released
  | @unreachable slot rest error after found asked slots limit acquired released =>
    have turn := (balanced.settled index slot found).request
    rw [asked] at turn
    have same : after.slots = pool.slots := by
      obtain ⟨_, rfl⟩ := List.getElem?_eq_some_iff.mp found
      rw [slots, turn.2, List.set_getElem_self]
    refine ⟨?_, ?_, ?_⟩
    · rw [same]
      exact balanced.known
    · rw [same, limit]
      exact balanced.settled
    · rw [acquired, released]
      exact balanced.total
  | full found asked => exact balanced

theorem acquire_keeps (pool : Pool σ γ) (index : Nat) : pool.Keeps (pool.acquire index).2 := by
  have came := acquire_cases pool index
  generalize pool.acquire index = request at came ⊢
  cases came with
  | unknown outside => exact .refl pool
  | granted found asked slots limit =>
    refine ⟨?_, limit⟩
    rw [slots, List.length_set]
  | unreachable found asked slots limit =>
    refine ⟨?_, limit⟩
    rw [slots, List.length_set]
  | full found asked => exact .refl pool

theorem acquire_known {index : Nat} (granted : pool.acquire index = (.granted loan, after)) :
    loan.index = index ∧ index < pool.slots.length ∧ after.acquired = pool.acquired + 1 ∧
      after.released = pool.released := by
  have came := acquire_cases pool index
  rw [granted] at came
  cases came with
  | granted found asked slots limit acquired released =>
    exact ⟨rfl, (List.getElem?_eq_some_iff.mp found).1, acquired, released⟩

end

/-! ## Borrowing -/

section

variable {pool after between : MetadataPool} {loan : Loan Connection}
  {loans : List (Loan Connection)}

theorem acquire_metadata (backed : 0 < pool.slots.length) :
    (pool.acquire metadataIndex).1 = .waiting ∨
      ∃ loan between, pool.acquire metadataIndex = (.granted loan, between) := by
  obtain ⟨slot, found⟩ : ∃ slot, pool.slots[metadataIndex]? = some slot :=
    ⟨_, List.getElem?_eq_getElem backed⟩
  simp only [acquire, found]
  cases slot.request pool.limit with
  | take connection rest => exact .inr ⟨_, _, rfl⟩
  | connect rest =>
    obtain ⟨connection, servers, connected⟩ := connect_metadata pool.connector
    simp only [connected]
    exact .inr ⟨_, _, rfl⟩
  | wait => exact .inl rfl

/-- One connection to the metadata backend is acquired and comes back, so that it is idle
again. -/
structure Borrows (pool after : MetadataPool) : Prop where
  once : ∃ loan between slot, pool.acquire metadataIndex = (.granted loan, between) ∧
    after = between.release loan ∧
    after.slots[metadataIndex]? = some slot ∧ slot.idle.head? = some loan.connection
  acquired : after.acquired = pool.acquired + 1
  released : after.released = pool.released + 1

theorem borrows_of_granted (granted : pool.acquire metadataIndex = (.granted loan, between)) :
    pool.Borrows (between.release loan) := by
  obtain ⟨lender, inside, acquired, released⟩ := acquire_known granted
  have keeps := acquire_keeps pool metadataIndex
  rw [granted] at keeps
  have inside : metadataIndex < between.slots.length := keeps.backends.symm ▸ inside
  refine ⟨⟨loan, between, between.slots[metadataIndex].park loan.connection, granted, rfl, ?_, rfl⟩,
    acquired, congrArg Nat.succ released⟩
  rw [release, lender, List.getElem?_modify_eq, List.getElem?_eq_getElem inside]
  rfl

theorem Borrows.balanced (borrows : pool.Borrows after) (balanced : pool.Balanced loans) :
    after.Balanced loans := by
  obtain ⟨loan, between, slot, granted, rfl, -⟩ := borrows.once
  have lent := acquire_balanced balanced metadataIndex
  rw [granted] at lent
  exact release_balanced lent

theorem Borrows.keeps (borrows : pool.Borrows after) : pool.Keeps after := by
  obtain ⟨loan, between, slot, granted, rfl, -⟩ := borrows.once
  have lent := acquire_keeps pool metadataIndex
  rw [granted] at lent
  exact lent.trans (release_keeps between loan)

end

end Pool
end MetadataClient
