import MetadataClient.Proofs.DocumentStore.History

/-! Names of tables. A store lies in a database that knows tables by their names. One of them is the
registry, and every namespace has a table whose name is the name of the namespace behind a
prefix. However namespaces are named, no two of them share a table and none has the registry.
So what is done by names is what is done with the store. -/
namespace MetadataClient

/-- A table of a database: the next numbers of the namespaces, or what a namespace has. -/
inductive NamedTable
  | registry (numbers : NameMap Nat)
  | rows (table : Table)

abbrev Database := String → Option NamedTable

namespace Database

open DocumentStore (Call accepted)

def registryName : String := "namespaces"

def tableName (source : String) : String := "ns:" ++ source

theorem tableName_injective {first second : String} (same : tableName first = tableName second) :
    first = second := by
  have letters := congrArg String.toList same
  rw [tableName, tableName, String.toList_append, String.toList_append] at letters
  exact String.toList_inj.mp (List.append_cancel_left letters)

theorem tableName_ne_registryName (source : String) : tableName source ≠ registryName := by
  intro same
  have letters := congrArg String.toList same
  simp [tableName, registryName] at letters

/-! ## Transactions by name -/

def put (database : Database) (name : String) (table : NamedTable) : Database :=
  Function.update database name (some table)

def numbers (database : Database) : Except StoreError (NameMap Nat) :=
  match database registryName with
  | none => .ok .empty
  | some (.registry numbers) => .ok numbers
  | some (.rows _) => .error .table

def rows? (database : Database) (source : String) : Except StoreError (Option Rows) :=
  match database (tableName source) with
  | none => .ok none
  | some (.rows (.documents rows)) => .ok (some rows)
  | some (.rows .foreign) | some (.registry _) => .error .table

def insert (database : Database) (source : String) (document : Document) :
    Except StoreError (Database × Nat) := do
  let numbers ← database.numbers
  let number := (numbers.find? source).getD 0
  let listed := database.put registryName (.registry (numbers.insert source (number + 1)))
  let rows := (← listed.rows? source).getD .empty
  return (listed.put (tableName source) (.rows (.documents (rows.insert number document.encode))),
    number)

def insertMany (database : Database) (source : String) :
    List Document → Except StoreError (Database × List Nat)
  | [] => .ok (database, [])
  | document :: rest => do
    let (database, number) ← database.insert source document
    let (database, numbers) ← database.insertMany source rest
    return (database, number :: numbers)

def delete (database : Database) (source : String) (filter : Filter) :
    Except StoreError (Database × Nat) := do
  if (← database.numbers).contains source then
    let rows := (← database.rows? source).getD .empty
    let found ← accepted filter rows.entries
    return (database.put (tableName source) (.rows (.documents (found.foldl SortedMap.erase rows))),
      found.length)
  else return (database, 0)

def perform (database : Database) : Write → Except StoreError Database
  | .insert source document => (database.insert source document).map (·.1)
  | .delete source filter => (database.delete source filter).map (·.1)

def drop (database : Database) (source : String) : Except StoreError (Database × Bool) := do
  let numbers ← database.numbers
  let listed := database.put registryName (.registry (numbers.erase source))
  return (Function.update listed (tableName source) none, numbers.contains source)

def respond (database : Database) : Call → Except StoreError (Database × DocumentStore.Reply)
  | .insert source document =>
    (database.insert source document).map fun (after, number) => (after, .number number)
  | .insertMany source documents =>
    (database.insertMany source documents).map fun (after, numbers) => (after, .numbers numbers)
  | .delete source filter =>
    (database.delete source filter).map fun (after, count) => (after, .removed count)
  | .apply writes => (writes.foldlM perform database).map fun after => (after, .done)
  | .drop source => (database.drop source).map fun (after, existed) => (after, .existed existed)
  | .reopen => .ok (database, .done)

/-! ## The store in a database -/

/-- The database keeps the store, beside tables with other names. -/
structure Keeps (beside : Database) (database : Database) (store : DocumentStore) : Prop where
  registry : database registryName = some (.registry store.registry)
  tables (source : String) : database (tableName source) = (store.tables.find? source).map .rows
  others (name : String) : name ≠ registryName → (∀ source, name ≠ tableName source) →
    database name = beside name

variable {beside database : Database} {store : DocumentStore}

theorem Keeps.unique {other : Database} (keeps : Keeps beside database store)
    (same : Keeps beside other store) : database = other := by
  funext name
  by_cases listed : name = registryName
  · rw [listed, keeps.registry, same.registry]
  · by_cases named : ∃ source, name = tableName source
    · obtain ⟨source, rfl⟩ := named
      rw [keeps.tables, same.tables]
    · have unnamed := not_exists.mp named
      rw [keeps.others name listed unnamed, same.others name listed unnamed]

open Classical in
theorem exists_keeps (beside : Database) (store : DocumentStore) :
    ∃ database, Keeps beside database store := by
  refine ⟨fun name => if name = registryName then some (.registry store.registry)
    else if named : ∃ source, name = tableName source
    then (store.tables.find? named.choose).map .rows else beside name, ?_, ?_, ?_⟩
  · exact if_pos rfl
  · intro source
    have named : ∃ other, tableName source = tableName other := ⟨source, rfl⟩
    rw [if_neg (tableName_ne_registryName source), dif_pos named,
      ← tableName_injective named.choose_spec]
  · intro name unlisted unnamed
    rw [if_neg unlisted, dif_neg (not_exists.mpr unnamed)]

theorem Keeps.numbers (keeps : Keeps beside database store) :
    database.numbers = .ok store.registry := by
  rw [Database.numbers, keeps.registry]

theorem Keeps.rows? (keeps : Keeps beside database store) (source : String) :
    database.rows? source = store.rows? source := by
  rw [Database.rows?, DocumentStore.rows?, keeps.tables]
  rcases store.tables.find? source with _ | _ | _ <;> rfl

theorem Keeps.put_registry (keeps : Keeps beside database store) (numbers : NameMap Nat) :
    Keeps beside (database.put registryName (.registry numbers)) ⟨numbers, store.tables⟩ := by
  constructor
  · exact Function.update_self ..
  · intro source
    rw [put, Function.update_of_ne (tableName_ne_registryName source), keeps.tables]
  · intro name unlisted unnamed
    rw [put, Function.update_of_ne unlisted, keeps.others name unlisted unnamed]

theorem Keeps.update_table (keeps : Keeps beside database store) {source : String}
    {table : Option Table} {tables : NameMap Table}
    (changed : ∀ other, tables.find? other =
      if source = other then table else store.tables.find? other) :
    Keeps beside (Function.update database (tableName source) (table.map .rows))
      ⟨store.registry, tables⟩ := by
  constructor
  · rw [Function.update_of_ne (tableName_ne_registryName source).symm, keeps.registry]
  · intro other
    rw [changed]
    by_cases same : source = other
    · subst same
      rw [Function.update_self, if_pos rfl]
    · rw [Function.update_of_ne (fun named => same (tableName_injective named).symm), if_neg same,
        keeps.tables]
  · intro name unlisted unnamed
    rw [Function.update_of_ne (unnamed source), keeps.others name unlisted unnamed]

theorem Keeps.put_table (keeps : Keeps beside database store) (source : String) (table : Table) :
    Keeps beside (database.put (tableName source) (.rows table))
      ⟨store.registry, store.tables.insert source table⟩ :=
  keeps.update_table fun _ => SortedMap.find?_insert ..

theorem Keeps.erase_table (keeps : Keeps beside database store) (source : String) :
    Keeps beside (Function.update database (tableName source) none)
      ⟨store.registry, store.tables.erase source⟩ :=
  keeps.update_table fun _ => SortedMap.find?_erase ..

/-! ## The same transactions -/

theorem insert_alike (keeps : Keeps beside database store) (source : String)
    (document : Document) :
    Alike (fun result expected => Keeps beside result.1 expected.1 ∧ result.2 = expected.2)
      (database.insert source document) (store.insert source document) := by
  rw [DocumentStore.insert_eq_insertEffect, insert, DocumentStore.insertEffect, keeps.numbers]
  have listed := keeps.put_registry (store.registry.insert source (store.nextNumber source + 1))
  have opened := listed.rows? source
  have same : DocumentStore.rows? ⟨store.registry.insert source (store.nextNumber source + 1),
    store.tables⟩ source = store.rows? source := rfl
  rw [same] at opened
  simp only [DocumentStore.nextNumber] at listed opened
  simp only [bind, Except.bind, opened]
  cases store.rows? source with
  | error error => exact .error error
  | ok rows =>
    exact .ok ⟨listed.put_table source _, rfl⟩

theorem insertMany_alike (keeps : Keeps beside database store) (source : String)
    (documents : List Document) :
    Alike (fun result expected => Keeps beside result.1 expected.1 ∧ result.2 = expected.2)
      (database.insertMany source documents) (store.insertMany source documents) := by
  rw [DocumentStore.insertMany_eq_insertEach]
  induction documents generalizing database store with
  | nil => exact .ok ⟨keeps, rfl⟩
  | cons document documents ih =>
    apply (insert_alike keeps source document).bind
    rintro ⟨database, number⟩ ⟨store, _⟩ ⟨keeps, rfl⟩
    apply (ih keeps).bind
    rintro ⟨database, numbers⟩ ⟨store, _⟩ ⟨keeps, rfl⟩
    exact .ok ⟨keeps, rfl⟩

theorem delete_alike (keeps : Keeps beside database store) (source : String) (filter : Filter) :
    Alike (fun result expected => Keeps beside result.1 expected.1 ∧ result.2 = expected.2)
      (database.delete source filter) (store.delete source filter) := by
  rw [DocumentStore.delete_eq_deleteEffect, delete, DocumentStore.deleteEffect, keeps.numbers,
    keeps.rows?]
  simp only [bind, Except.bind, pure, Except.pure, DocumentStore.foldl_erase]
  split
  · cases store.rows? source with
    | error error => exact .error error
    | ok rows =>
      dsimp only
      cases accepted filter (rows.getD .empty).entries with
      | error error => exact .error error
      | ok numbers =>
        exact .ok ⟨keeps.put_table source _, rfl⟩
  · exact .ok ⟨keeps, rfl⟩

theorem perform_alike (keeps : Keeps beside database store) (write : Write) :
    Alike (Keeps beside) (database.perform write) (store.perform write) := by
  cases write with
  | insert source document =>
    apply (insert_alike keeps source document).map
    intro result expected same
    exact same.1
  | delete source filter =>
    apply (delete_alike keeps source filter).map
    intro result expected same
    exact same.1

theorem respond_alike (keeps : Keeps beside database store) (call : Call) :
    Alike (fun result expected => Keeps beside result.1 expected.1 ∧ result.2 = expected.2)
      (database.respond call) (store.respond call) := by
  cases call with
  | insert source document =>
    apply (insert_alike keeps source document).map
    rintro ⟨after, number⟩ ⟨after', _⟩ ⟨keeps, rfl⟩
    exact ⟨keeps, rfl⟩
  | insertMany source documents =>
    apply (insertMany_alike keeps source documents).map
    rintro ⟨after, numbers⟩ ⟨after', _⟩ ⟨keeps, rfl⟩
    exact ⟨keeps, rfl⟩
  | delete source filter =>
    apply (delete_alike keeps source filter).map
    rintro ⟨after, count⟩ ⟨after', _⟩ ⟨keeps, rfl⟩
    exact ⟨keeps, rfl⟩
  | apply writes =>
    rw [respond, DocumentStore.respond, DocumentStore.apply_eq_foldlM]
    apply (Alike.foldlM (fun write keeps => perform_alike keeps write) keeps writes).map
    intro after after' keeps
    exact ⟨keeps, rfl⟩
  | drop source =>
    rw [respond, drop, keeps.numbers]
    exact .ok ⟨(keeps.put_registry (store.registry.erase source)).erase_table source, rfl⟩
  | reopen => exact .ok ⟨keeps, rfl⟩

/-- What is done by name is what is done with the store. -/
theorem history_keeps (keeps : Keeps beside database store) (calls : List Call) :
    Keeps beside (DocumentStore.history respond database calls).1
        (DocumentStore.history DocumentStore.respond store calls).1 ∧
      (DocumentStore.history respond database calls).2 =
        (DocumentStore.history DocumentStore.respond store calls).2 :=
  DocumentStore.history_alike (Keeps beside) (fun keeps call _ => respond_alike keeps call) keeps

end Database
end MetadataClient
