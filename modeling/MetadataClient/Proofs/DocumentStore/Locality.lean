import MetadataClient.Proofs.DocumentStore.Readability

/-! One namespace at a time. Every write of a store is on a namespace. What is in this namespace
determines what the write does and tells, and what is in the others stays as it is. So stores
that agree on some namespaces cannot be told apart there. -/
namespace MetadataClient

def Write.target : Write → String
  | .insert source _ => source
  | .delete source _ => source

namespace DocumentStore

variable {α β : Type} {source : String} {within : String → Prop}
  {store first second : DocumentStore}

structure SameAt (source : String) (first second : DocumentStore) : Prop where
  registry : first.registry.find? source = second.registry.find? source
  tables : first.tables.find? source = second.tables.find? source

/-- Two stores have the same of some namespaces. -/
def Agree (within : String → Prop) (first second : DocumentStore) : Prop :=
  ∀ source, within source → SameAt source first second

theorem SameAt.refl (source : String) (store : DocumentStore) : SameAt source store store :=
  ⟨rfl, rfl⟩

theorem SameAt.symm (same : SameAt source first second) : SameAt source second first :=
  ⟨same.registry.symm, same.tables.symm⟩

theorem SameAt.trans {third : DocumentStore} (same : SameAt source first second)
    (next : SameAt source second third) : SameAt source first third :=
  ⟨same.registry.trans next.registry, same.tables.trans next.tables⟩

theorem Agree.trans {third : DocumentStore} (agree : Agree within first second)
    (next : Agree within second third) : Agree within first third :=
  fun source inside => (agree source inside).trans (next source inside)

theorem Agree.symm (agree : Agree within first second) : Agree within second first :=
  fun source inside => (agree source inside).symm

/-! ## What is there to be seen -/

/-- The rows of a namespace. A table that cannot be opened has none. -/
def stored (store : DocumentStore) (source : String) : List (Nat × Bytes) :=
  match store.tables.find? source with
  | some (.documents rows) => rows.entries
  | some .foreign | none => []

theorem stored_of_rows? {rows : Option Rows} (opened : store.rows? source = .ok rows) :
    store.stored source = (rows.getD .empty).entries := by
  rw [rows?] at opened
  rw [stored]
  cases found : store.tables.find? source with
  | none =>
    rw [found] at opened
    cases opened
    rfl
  | some table =>
    rw [found] at opened
    cases table with
    | documents rows =>
      cases opened
      rfl
    | foreign => cases opened

theorem stored_insert (registry : NameMap Nat) (rows : Rows) :
    stored ⟨registry, store.tables.insert source (.documents rows)⟩ source = rows.entries := by
  rw [stored, SortedMap.find?_insert, if_pos rfl]

theorem SameAt.rows? (same : SameAt source first second) :
    first.rows? source = second.rows? source := by
  rw [DocumentStore.rows?, DocumentStore.rows?, same.tables]

theorem SameAt.stored (same : SameAt source first second) :
    first.stored source = second.stored source := by
  rw [DocumentStore.stored, DocumentStore.stored, same.tables]

theorem SameAt.nextNumber (same : SameAt source first second) :
    first.nextNumber source = second.nextNumber source := by
  rw [DocumentStore.nextNumber, DocumentStore.nextNumber, same.registry]

theorem SameAt.contains (same : SameAt source first second) :
    first.registry.contains source = second.registry.contains source := by
  rw [SortedMap.contains, SortedMap.contains, same.registry]

theorem SameAt.find (same : SameAt source first second) (options : FindOptions) :
    first.find source options = second.find source options := by
  rw [DocumentStore.find, DocumentStore.find, same.rows?]

theorem SameAt.count (same : SameAt source first second) :
    first.count source = second.count source := by
  rw [DocumentStore.count, DocumentStore.count, same.rows?]

theorem SameAt.mem_namespaces (same : SameAt source first second) :
    source ∈ first.namespaces ↔ source ∈ second.namespaces := by
  rw [namespaces, namespaces, SortedMap.mem_keys, SortedMap.mem_keys, same.contains]

theorem eq_of_agree (agree : Agree (fun _ => True) first second) : first = second := by
  obtain ⟨registry, tables⟩ := first
  obtain ⟨registry', tables'⟩ := second
  obtain rfl : registry = registry' := SortedMap.ext fun source => (agree source trivial).registry
  obtain rfl : tables = tables' := SortedMap.ext fun source => (agree source trivial).tables
  rfl

/-! ## Operations on a namespace -/

theorem exists_of_insert {document : Document} {after : DocumentStore} {number : Nat}
    (inserted : store.insert source document = .ok (after, number)) :
    number = store.nextNumber source ∧ ∃ rows, store.rows? source = .ok rows ∧
      after = ⟨store.registry.insert source (number + 1), store.tables.insert source
        (.documents ((rows.getD .empty).insert number document.encode))⟩ := by
  rw [insert_eq_insertEffect, insertEffect] at inserted
  obtain ⟨rows, opened, inserted⟩ := exists_of_bind inserted
  cases inserted
  exact ⟨rfl, rows, opened, rfl⟩

theorem exists_of_delete {filter : Filter} {after : DocumentStore} {count : Nat}
    (registered : store.registry.contains source = true)
    (deleted : store.delete source filter = .ok (after, count)) :
    ∃ rows numbers, store.rows? source = .ok rows ∧
      accepted filter (rows.getD .empty).entries = .ok numbers ∧ count = numbers.length ∧
      after = ⟨store.registry, store.tables.insert source
        (.documents ((rows.getD .empty).filter fun row => !numbers.contains row.1))⟩ := by
  rw [delete_eq_deleteEffect, deleteEffect, if_pos registered] at deleted
  obtain ⟨rows, opened, deleted⟩ := exists_of_bind deleted
  obtain ⟨numbers, searched, deleted⟩ := exists_of_bind deleted
  cases deleted
  exact ⟨rows, numbers, opened, searched, rfl, rfl⟩

theorem delete_unregistered (unregistered : store.registry.contains source = false)
    (filter : Filter) : store.delete source filter = .ok (store, 0) := by
  rw [delete_eq_deleteEffect, deleteEffect, unregistered]
  rfl

/-- An operation on a namespace: what is there decides what it does and tells, and no other
namespace is changed. -/
structure Local (source : String)
    (steps : DocumentStore → Except StoreError (DocumentStore × α)) : Prop where
  alike {first second : DocumentStore} : SameAt source first second →
    Alike (fun result expected => SameAt source result.1 expected.1 ∧ result.2 = expected.2)
      (steps first) (steps second)
  apart {store after : DocumentStore} {answer : α} {other : String} :
    steps store = .ok (after, answer) → source ≠ other → SameAt other store after

theorem Local.pure (source : String) (answer : α) :
    Local source fun store => .ok (store, answer) := by
  constructor
  · intro first second same
    exact .ok ⟨same, rfl⟩
  · rintro store _ _ other ⟨⟩ -
    exact SameAt.refl other store

theorem Local.bind {steps : DocumentStore → Except StoreError (DocumentStore × α)}
    {next : α → DocumentStore → Except StoreError (DocumentStore × β)}
    (here : Local source steps) (later : ∀ answer, Local source (next answer)) :
    Local source fun store => steps store >>= fun result => next result.2 result.1 := by
  constructor
  · intro first second same
    apply (here.alike same).bind
    rintro ⟨after, answer⟩ ⟨after', _⟩ ⟨same, rfl⟩
    exact (later answer).alike same
  · intro store after answer other done different
    obtain ⟨result, began, ended⟩ := exists_of_bind done
    exact (here.apart began different).trans ((later result.2).apart ended different)

theorem Local.map {steps : DocumentStore → Except StoreError (DocumentStore × α)}
    (here : Local source steps) (tell : α → β) :
    Local source fun store => (steps store).map fun result => (result.1, tell result.2) := by
  have same : (fun store => (steps store).map fun result => (result.1, tell result.2)) =
      fun store => steps store >>= fun result => .ok (result.1, tell result.2) := by
    funext store
    cases steps store <;> rfl
  rw [same]
  exact here.bind fun answer => Local.pure source (tell answer)

theorem insert_local (source : String) (document : Document) :
    Local source (insert · source document) := by
  constructor
  · intro first second same
    simp only [insert_eq_insertEffect, insertEffect]
    rw [same.rows?, same.nextNumber]
    cases second.rows? source with
    | error error => exact .error error
    | ok rows =>
      refine .ok ⟨⟨?_, ?_⟩, rfl⟩
      · rw [SortedMap.find?_insert, SortedMap.find?_insert, if_pos rfl, if_pos rfl]
      · rw [SortedMap.find?_insert, SortedMap.find?_insert, if_pos rfl, if_pos rfl]
  · intro store after number other inserted different
    obtain ⟨-, rows, -, rfl⟩ := exists_of_insert inserted
    constructor
    · rw [SortedMap.find?_insert, if_neg different]
    · rw [SortedMap.find?_insert, if_neg different]

theorem delete_local (source : String) (filter : Filter) :
    Local source (delete · source filter) := by
  constructor
  · intro first second same
    simp only [delete_eq_deleteEffect, deleteEffect]
    rw [same.rows?, same.contains]
    split
    · cases second.rows? source with
      | error error => exact .error error
      | ok rows =>
        simp only [Bind.bind, Except.bind]
        cases accepted filter (rows.getD .empty).entries with
        | error error => exact .error error
        | ok numbers =>
          refine .ok ⟨⟨same.registry, ?_⟩, rfl⟩
          rw [SortedMap.find?_insert, SortedMap.find?_insert, if_pos rfl, if_pos rfl]
    · exact .ok ⟨same, rfl⟩
  · intro store after count other deleted different
    cases registered : store.registry.contains source with
    | true =>
      obtain ⟨rows, numbers, -, -, -, rfl⟩ := exists_of_delete registered deleted
      refine ⟨rfl, ?_⟩
      rw [SortedMap.find?_insert, if_neg different]
    | false =>
      have unchanged := (delete_unregistered registered filter).symm.trans deleted
      cases unchanged
      exact SameAt.refl other store

theorem insertMany_local (source : String) (documents : List Document) :
    Local source (insertMany · source documents) := by
  simp only [insertMany_eq_insertEach]
  induction documents with
  | nil => exact Local.pure source []
  | cons document documents ih =>
    exact (insert_local source document).bind fun number => ih.map (number :: ·)

theorem drop_local (source : String) : Local source fun store => .ok (store.drop source) := by
  constructor
  · intro first second same
    refine .ok ⟨⟨?_, ?_⟩, same.contains⟩
    · rw [drop, drop, SortedMap.find?_erase, SortedMap.find?_erase, if_pos rfl, if_pos rfl]
    · rw [drop, drop, SortedMap.find?_erase, SortedMap.find?_erase, if_pos rfl, if_pos rfl]
  · rintro store _ _ other ⟨⟩ different
    constructor
    · rw [SortedMap.find?_erase, if_neg different]
    · rw [SortedMap.find?_erase, if_neg different]

theorem drop_sameAt_empty (store : DocumentStore) (source : String) :
    SameAt source (store.drop source).1 empty := by
  constructor
  · rw [drop, SortedMap.find?_erase, if_pos rfl]
    rfl
  · rw [drop, SortedMap.find?_erase, if_pos rfl]
    rfl

/-! ## Namespaces that are observed -/

/-- An operation on a namespace that is observed. -/
theorem Local.agree {steps : DocumentStore → Except StoreError (DocumentStore × α)}
    (here : Local source steps) (agree : Agree within first second) (inside : within source) :
    Alike (fun result expected => Agree within result.1 expected.1 ∧ result.2 = expected.2)
      (steps first) (steps second) := by
  have alike := here.alike (agree source inside)
  cases done : steps first with
  | error error =>
    rw [done] at alike
    rw [alike.eq_error]
    exact .error error
  | ok result =>
    rw [done] at alike
    obtain ⟨expected, done', same, answer⟩ := alike.exists_of_ok
    rw [done']
    refine .ok ⟨?_, answer⟩
    intro other observed
    by_cases equal : source = other
    · subst equal
      exact same
    · exact (here.apart done equal).symm.trans
        ((agree other observed).trans (here.apart done' equal))

/-- An operation on a namespace that is not. -/
theorem Local.outside {steps : DocumentStore → Except StoreError (DocumentStore × α)}
    (here : Local source steps) {after : DocumentStore} {answer : α}
    (done : steps store = .ok (after, answer)) (outside : ¬within source) :
    Agree within store after := by
  intro other observed
  apply here.apart done
  rintro rfl
  exact outside observed

/-! ## Writes -/

theorem perform_agree (agree : Agree within first second) {write : Write}
    (inside : within write.target) :
    Alike (Agree within) (first.perform write) (second.perform write) := by
  cases write with
  | insert source document =>
    apply ((insert_local source document).agree agree inside).map
    intro result expected same
    exact same.1
  | delete source filter =>
    apply ((delete_local source filter).agree agree inside).map
    intro result expected same
    exact same.1

theorem perform_outside {write : Write} {after : DocumentStore}
    (performed : store.perform write = .ok after) (outside : ¬within write.target) :
    Agree within store after := by
  cases write with
  | insert source document =>
    obtain ⟨⟨_, number⟩, inserted, rfl⟩ := exists_of_map performed
    exact (insert_local source document).outside inserted outside
  | delete source filter =>
    obtain ⟨⟨_, count⟩, deleted, rfl⟩ := exists_of_map performed
    exact (delete_local source filter).outside deleted outside

theorem apply_agree (agree : Agree within first second) {writes : List Write}
    (inside : ∀ write ∈ writes, within write.target) :
    Alike (Agree within) (first.apply writes) (second.apply writes) := by
  induction writes generalizing first second with
  | nil => exact .ok agree
  | cons write writes ih =>
    obtain ⟨here, later⟩ := List.forall_mem_cons.mp inside
    rw [apply_cons, apply_cons]
    apply (perform_agree agree here).bind
    intro after expected agree
    exact ih agree later

/-- Writes of namespaces that are not observed can be left out of a transaction that succeeds. -/
theorem apply_filter [DecidablePred within] (agree : Agree within first second)
    {writes : List Write} {after : DocumentStore} (applied : first.apply writes = .ok after) :
    ∃ expected, second.apply (writes.filter fun write => within write.target) = .ok expected ∧
      Agree within after expected := by
  induction writes generalizing first second with
  | nil =>
    cases applied
    exact ⟨second, rfl, agree⟩
  | cons write writes ih =>
    rw [apply_cons] at applied
    obtain ⟨next, performed, applied⟩ := exists_of_bind applied
    rw [List.filter_cons]
    split
    next inside =>
      have alike := perform_agree agree (of_decide_eq_true inside)
      rw [performed] at alike
      obtain ⟨other, performed', agree⟩ := alike.exists_of_ok
      obtain ⟨expected, applied', agree⟩ := ih agree applied
      refine ⟨expected, ?_, agree⟩
      rw [apply_cons, performed']
      exact applied'
    next outside =>
      have same : Agree within first next := perform_outside performed (by simpa using outside)
      exact ih (same.symm.trans agree) applied

end DocumentStore
end MetadataClient
