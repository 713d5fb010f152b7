import MetadataClient.DocumentStore.Basic
import Mathlib.Tactic.Common

/-! Transactions against single calls. Steps that run one after the other in one
transaction have the effect of transactions of their own, one for each step, as long as
all of them succeed; if one fails, nothing of it is left. -/
namespace MetadataClient
namespace DocumentStore

variable {α β : Type}

theorem exists_of_bind {ε : Type} {steps : Except ε α} {next : α → Except ε β} {answer : β}
    (done : steps >>= next = .ok answer) :
    ∃ between, steps = .ok between ∧ next between = .ok answer := by
  cases steps with
  | error error => cases done
  | ok between => exact ⟨between, rfl, done⟩

theorem exists_of_map {ε : Type} {steps : Except ε α} {tell : α → β} {answer : β}
    (done : steps.map tell = .ok answer) :
    ∃ between, steps = .ok between ∧ tell between = answer := by
  cases steps with
  | error error => cases done
  | ok between => exact ⟨between, rfl, Except.ok.inj done⟩

/-- The effect of a single insertion: the table has to open, and registry and table change
together. -/
def insertEffect (store : DocumentStore) (source : String) (document : Document) :
    Except StoreError (DocumentStore × Nat) := do
  let rows ← store.rows? source
  let number := store.nextNumber source
  return (⟨store.registry.insert source (number + 1), store.tables.insert source
    (.documents ((rows.getD .empty).insert number document.encode))⟩, number)

/-- The effect of a single deletion: in a namespace that is registered, every row has to be
readable, and those that the filter accepts go. -/
def deleteEffect (store : DocumentStore) (source : String) (filter : Filter) :
    Except StoreError (DocumentStore × Nat) :=
  if store.registry.contains source then do
    let rows := (← store.rows? source).getD .empty
    let numbers ← accepted filter rows.entries
    return (⟨store.registry, store.tables.insert source
      (.documents (rows.filter fun row => !numbers.contains row.1))⟩, numbers.length)
  else .ok (store, 0)

/-- A transaction does what the calls do, and leaves the store as it was if one of them
fails. -/
structure AllOrNothing (steps : Transaction α)
    (calls : DocumentStore → Except StoreError (DocumentStore × α)) : Prop where
  success (store after : DocumentStore) (answer : α) :
    steps.settle store = (.ok answer, after) ↔ calls store = .ok (after, answer)
  failure (store after : DocumentStore) (error : StoreError) :
    steps.settle store = (.error error, after) ↔ calls store = .error error ∧ after = store

def perform (store : DocumentStore) : Write → Except StoreError DocumentStore
  | .insert source document => (store.insert source document).map (·.1)
  | .delete source filter => (store.delete source filter).map (·.1)

/-- Insertions as calls of their own, with the numbers that they return. -/
def insertEach (store : DocumentStore) (source : String) :
    List Document → Except StoreError (DocumentStore × List Nat)
  | [] => .ok (store, [])
  | document :: rest => do
    let (store, number) ← store.insert source document
    let (store, numbers) ← store.insertEach source rest
    return (store, number :: numbers)

theorem commit_pure (store : DocumentStore) (answer : α) :
    store.commit (pure answer) = .ok (store, answer) := rfl

/-- Steps in one transaction against the same steps in two. -/
theorem commit_bind (store : DocumentStore) (steps : Transaction α) (next : α → Transaction β) :
    store.commit (steps >>= next) =
      store.commit steps >>= fun result => result.1.commit (next result.2) := by
  simp only [commit, Transaction.settle, ExceptT.run_bind, StateT.run_bind]
  rcases steps.run.run store with ⟨error | answer, copy⟩
  · rfl
  · simp only [bind, Except.bind]
    rcases (next answer).run.run copy with ⟨error | answer, copy⟩ <;> rfl

theorem perform_eq_commit (store : DocumentStore) (write : Write) :
    store.perform write = (store.commit (Transaction.perform write)).map (·.1) := by
  cases write with
  | insert source document =>
    simp only [perform, insert, Transaction.perform, commit_bind, commit_pure]
    cases store.commit (Transaction.insert source document) <;> rfl
  | delete source filter =>
    simp only [perform, delete, Transaction.perform, commit_bind, commit_pure]
    cases store.commit (Transaction.delete source filter) <;> rfl

theorem apply_cons (store : DocumentStore) (write : Write) (rest : List Write) :
    store.apply (write :: rest) = store.perform write >>= fun after => after.apply rest := by
  have first : (write :: rest).forM Transaction.perform =
      Transaction.perform write >>= fun _ => rest.forM Transaction.perform := rfl
  simp only [apply, first, commit_bind, perform_eq_commit]
  cases store.commit (Transaction.perform write) <;> rfl

theorem apply_eq_foldlM (store : DocumentStore) (writes : List Write) :
    store.apply writes = writes.foldlM perform store := by
  induction writes generalizing store with
  | nil => rfl
  | cons write rest ih =>
    rw [apply_cons, List.foldlM_cons]
    exact bind_congr fun after => ih after

theorem apply_append (store : DocumentStore) (first second : List Write) :
    store.apply (first ++ second) = store.apply first >>= fun after => after.apply second := by
  simp only [apply_eq_foldlM, List.foldlM_append]

theorem insertMany_eq_insertEach (store : DocumentStore) (source : String)
    (documents : List Document) :
    store.insertMany source documents = store.insertEach source documents := by
  induction documents generalizing store with
  | nil => rfl
  | cons document rest ih =>
    simp only [insertEach, ← ih, insertMany, List.mapM_cons, commit_bind, commit_pure, insert]
    rfl

theorem commit_get (store : DocumentStore) : store.commit get = .ok (store, store) := rfl

theorem commit_takeNumber (store : DocumentStore) (source : String) :
    store.commit (.takeNumber source) =
      .ok ({ store with registry := store.registry.insert source (store.nextNumber source + 1) },
        store.nextNumber source) := rfl

theorem commit_putRows (store : DocumentStore) (source : String) (rows : Rows) :
    store.commit (.putRows source rows) =
      .ok ({ store with tables := store.tables.insert source (.documents rows) }, ()) := rfl

theorem commit_openTable (store : DocumentStore) (source : String) :
    store.commit (.openTable source) = (store.rows? source).map fun
      | some rows => (store, rows)
      | none => ({ store with tables := store.tables.insert source (.documents .empty) },
          .empty) := by
  simp only [Transaction.openTable, commit_bind, commit_get]
  cases opens : store.rows? source with
  | error error => simp only [bind, Except.bind, opens]; rfl
  | ok found =>
    cases found <;> simp only [bind, Except.bind, opens] <;> rfl

theorem foldl_erase (rows : Rows) (numbers : List Nat) :
    numbers.foldl SortedMap.erase rows = rows.filter fun row => !numbers.contains row.1 := by
  have entries : (numbers.foldl SortedMap.erase rows).entries =
      rows.entries.filter fun row => !numbers.contains row.1 := by
    induction numbers generalizing rows with
    | nil => exact (List.filter_eq_self.mpr fun _ _ => rfl).symm
    | cons number rest ih =>
      rw [List.foldl_cons, ih]
      simp only [SortedMap.erase, Entries.erase, List.filter_filter]
      refine List.filter_congr fun row _ => ?_
      rw [List.contains_cons, Bool.not_or, Bool.and_comm, bne]
  cases folded : numbers.foldl SortedMap.erase rows with
  | mk kept ascending =>
    rw [folded] at entries
    cases entries
    rfl

/-- The number is taken before the table is opened, and the table is created before the row
is put into it; none of this shows when the transaction has ended. -/
theorem insert_eq_insertEffect (store : DocumentStore) (source : String) (document : Document) :
    store.insert source document = store.insertEffect source document := by
  have table : rows? ⟨store.registry.insert source (store.nextNumber source + 1), store.tables⟩
      source = store.rows? source := rfl
  simp only [insert, Transaction.insert, commit_bind, commit_takeNumber, commit_openTable,
    commit_putRows, commit_pure, insertEffect]
  simp only [bind, Except.bind, table]
  rcases store.rows? source with error | _ | rows
  · rfl
  · simp only [Except.map, SortedMap.insert_insert, Option.getD_none]
    rfl
  · rfl

/-- Whether the namespace is registered is asked before the table is opened. -/
theorem delete_eq_deleteEffect (store : DocumentStore) (source : String) (filter : Filter) :
    store.delete source filter = store.deleteEffect source filter := by
  rw [delete, Transaction.delete, deleteEffect, commit_bind, commit_get]
  change store.commit _ = _
  dsimp only
  split
  · have removal (after : DocumentStore) (rows : Rows) (numbers : List Nat) :
        after.commit (do
          Transaction.putRows source (numbers.foldl SortedMap.erase rows)
          return numbers.length) =
            .ok (⟨after.registry, after.tables.insert source
              (.documents (rows.filter fun row => !numbers.contains row.1))⟩, numbers.length) := by
      simp only [commit_bind, commit_putRows, commit_pure, foldl_erase]
      rfl
    rw [commit_bind, commit_openTable]
    cases store.rows? source with
    | error error => rfl
    | ok found =>
      cases found with
      | none =>
        simp only [bind, Except.bind, Except.map, Option.getD_none]
        cases accepted filter (SortedMap.empty : Rows).entries with
        | error error => rfl
        | ok numbers =>
          refine (removal _ .empty numbers).trans ?_
          simp only [SortedMap.insert_insert]
          rfl
      | some rows =>
        simp only [bind, Except.bind, Except.map, Option.getD_some]
        cases accepted filter rows.entries with
        | error error => rfl
        | ok numbers => exact removal store rows numbers
  · rfl

theorem allOrNothing_of_commit {steps : Transaction α}
    {calls : DocumentStore → Except StoreError (DocumentStore × α)}
    (same : ∀ store, commit store steps = calls store) : AllOrNothing steps calls := by
  constructor
  · intro store after answer
    rw [← same, commit, Transaction.settle]
    rcases steps.run.run store with ⟨error | found, copy⟩ <;> simp [and_comm]
  · intro store after error
    rw [← same, commit, Transaction.settle]
    rcases steps.run.run store with ⟨found | answer, copy⟩ <;> simp [eq_comm]

/-- Calls one after the other fail where one of them does, all before it having
succeeded. -/
theorem foldlM_perform_error_iff (store : DocumentStore) (writes : List Write)
    (error : StoreError) :
    writes.foldlM perform store = .error error ↔
      ∃ earlier write later reached, writes = earlier ++ write :: later ∧
        earlier.foldlM perform store = .ok reached ∧ reached.perform write = .error error := by
  induction writes generalizing store with
  | nil => simp [pure, Except.pure]
  | cons write rest ih =>
    rw [List.foldlM_cons]
    constructor
    · intro failed
      cases first : store.perform write with
      | error found =>
        rw [first] at failed
        cases failed
        exact ⟨[], write, rest, store, rfl, rfl, first⟩
      | ok after =>
        rw [first] at failed
        obtain ⟨earlier, last, later, reached, rfl, performed, fails⟩ := (ih after).mp failed
        refine ⟨write :: earlier, last, later, reached, rfl, ?_, fails⟩
        rw [List.foldlM_cons, first]
        exact performed
    · rintro ⟨earlier, last, later, reached, same, performed, fails⟩
      cases earlier with
      | nil =>
        cases same
        cases performed
        rw [fails]
        rfl
      | cons head earlier =>
        cases same
        rw [List.foldlM_cons] at performed
        obtain ⟨after, first, performed⟩ := exists_of_bind performed
        rw [first]
        exact (ih after).mpr ⟨earlier, last, later, reached, rfl, performed, fails⟩

/-- All or nothing, for every store, with tables that cannot be opened and rows that cannot
be read. Several writes in one transaction succeed exactly if each of them succeeds as a
call of its own after the calls before it; they then leave the same store, and otherwise
the store that was there before. Also for many insertions, which return the numbers
that the single calls return, and for a single insertion or deletion. -/
theorem writes_allOrNothing :
    (∀ writes : List Write, AllOrNothing (writes.forM Transaction.perform)
      fun store => (writes.foldlM perform store).map (·, ())) ∧
    (∀ (source : String) (documents : List Document),
      AllOrNothing (documents.mapM (Transaction.insert source)) (insertEach · source documents)) ∧
    (∀ (source : String) (document : Document),
      AllOrNothing (Transaction.insert source document) (insertEffect · source document)) ∧
    (∀ (source : String) (filter : Filter),
      AllOrNothing (Transaction.delete source filter) (deleteEffect · source filter)) ∧
    ∀ store : DocumentStore,
      (∀ writes, store.apply writes = writes.foldlM perform store) ∧
      (∀ first second, store.apply (first ++ second) =
        store.apply first >>= fun after => after.apply second) ∧
      (∀ writes error, store.apply writes = .error error ↔
        ∃ earlier write later reached, writes = earlier ++ write :: later ∧
          earlier.foldlM perform store = .ok reached ∧ reached.perform write = .error error) ∧
      (∀ source documents, store.insertMany source documents = store.insertEach source documents) ∧
      (∀ source document, store.insert source document = store.insertEffect source document) ∧
      ∀ source filter, store.delete source filter = store.deleteEffect source filter := by
  refine ⟨?_, ?_, ?_, ?_, ?_⟩
  · intro writes
    apply allOrNothing_of_commit
    intro store
    rw [← apply_eq_foldlM, apply]
    cases store.commit (writes.forM Transaction.perform) <;> rfl
  · intro source documents
    apply allOrNothing_of_commit
    intro store
    exact store.insertMany_eq_insertEach source documents
  · intro source document
    apply allOrNothing_of_commit
    intro store
    exact store.insert_eq_insertEffect source document
  · intro source filter
    apply allOrNothing_of_commit
    intro store
    exact store.delete_eq_deleteEffect source filter
  · intro store
    refine ⟨store.apply_eq_foldlM, store.apply_append, ?_, store.insertMany_eq_insertEach,
      store.insert_eq_insertEffect, store.delete_eq_deleteEffect⟩
    intro writes error
    rw [apply_eq_foldlM, foldlM_perform_error_iff]

end DocumentStore
end MetadataClient
