import MetadataClient.Proofs.DocumentStore.Locality

/-! Histories of a store: what was attempted, one use after the other, with all that the store has
answered. -/
namespace MetadataClient
namespace DocumentStore

inductive Reply
  | done
  | number (number : Nat)
  | numbers (numbers : List Nat)
  | removed (count : Nat)
  | existed (answer : Bool)
deriving DecidableEq

def Reply.answer : Reply → Answer
  | .done | .number _ | .numbers _ => .done
  | .removed count => .removed count
  | .existed answer => .existed answer

def respond (store : DocumentStore) : Call → Except StoreError (DocumentStore × Reply)
  | .insert source document =>
    (store.insert source document).map fun (after, number) => (after, .number number)
  | .insertMany source documents =>
    (store.insertMany source documents).map fun (after, numbers) => (after, .numbers numbers)
  | .delete source filter =>
    (store.delete source filter).map fun (after, count) => (after, .removed count)
  | .apply writes => (store.apply writes).map fun after => (after, .done)
  | .drop source => .ok ((store.drop source).1, .existed (store.drop source).2)
  | .reopen => .ok (store, .done)

theorem call_eq_respond (store : DocumentStore) (call : Call) :
    store.call call = (store.respond call).map fun (after, reply) => (after, reply.answer) := by
  cases call with
  | insert source document =>
    rw [DocumentStore.call, respond]
    cases store.insert source document <;> rfl
  | insertMany source documents =>
    rw [DocumentStore.call, respond]
    cases store.insertMany source documents <;> rfl
  | delete source filter =>
    rw [DocumentStore.call, respond]
    cases store.delete source filter <;> rfl
  | apply writes =>
    rw [DocumentStore.call, respond]
    cases store.apply writes <;> rfl
  | drop source => rfl
  | reopen => rfl

def Call.targets : Call → List String
  | .insert source _ | .insertMany source _ | .delete source _ | .drop source => [source]
  | .apply writes => writes.map Write.target
  | .reopen => []

structure Event where
  call : Call
  outcome : Except StoreError Reply

/-- All that is attempted, one after the other. What fails changes nothing. -/
def history {σ : Type} (respond : σ → Call → Except StoreError (σ × Reply)) (state : σ) :
    List Call → σ × List Event
  | [] => (state, [])
  | call :: calls =>
    match respond state call with
    | .ok (after, reply) =>
      ((history respond after calls).1, ⟨call, .ok reply⟩ :: (history respond after calls).2)
    | .error error =>
      ((history respond state calls).1, ⟨call, .error error⟩ :: (history respond state calls).2)

theorem history_append {σ : Type} (respond : σ → Call → Except StoreError (σ × Reply)) (state : σ)
    (calls more : List Call) : (history respond state (calls ++ more)).1 =
      (history respond (history respond state calls).1 more).1 := by
  induction calls generalizing state with
  | nil => rfl
  | cons call calls ih =>
    rw [List.cons_append, history, history]
    split
    · exact ih _
    · exact ih state

theorem history_alike {σ τ : Type} (related : σ → τ → Prop)
    {respond : σ → Call → Except StoreError (σ × Reply)}
    {respond' : τ → Call → Except StoreError (τ × Reply)} {calls : List Call}
    (step : ∀ {state other}, related state other → ∀ call ∈ calls,
      Alike (fun result expected => related result.1 expected.1 ∧ result.2 = expected.2)
        (respond state call) (respond' other call))
    {state : σ} {other : τ} (same : related state other) :
    related (history respond state calls).1 (history respond' other calls).1 ∧
      (history respond state calls).2 = (history respond' other calls).2 := by
  induction calls generalizing state other with
  | nil => exact ⟨same, rfl⟩
  | cons call calls ih =>
    have later {state other} (same : related state other) :=
      ih (fun same call member => step same call (List.mem_cons_of_mem _ member)) same
    have alike := step same call List.mem_cons_self
    rw [history, history]
    generalize respond state call = first at alike ⊢
    generalize respond' other call = second at alike ⊢
    cases alike with
    | @ok result expected next =>
      obtain ⟨after, reply⟩ := result
      obtain ⟨after', _⟩ := expected
      obtain ⟨next, rfl⟩ := next
      obtain ⟨states, events⟩ := later next
      exact ⟨states, congrArg (_ :: ·) events⟩
    | error error =>
      obtain ⟨states, events⟩ := later same
      exact ⟨states, congrArg (_ :: ·) events⟩

end DocumentStore
end MetadataClient
