import MetadataClient.Proofs.DocumentStore.Readings
import MetadataClient.Proofs.DocumentStore.Scan

/-! What a document store stands for. A store without foreign tables and stray rows, all of whose
rows can be read, is a map from namespaces to lists of documents, and every change of the
store is the same change of the map. -/
namespace MetadataClient

/-- The documents of every namespace that has been written to, in the order of their
insertion. -/
abbrev Contents := String → Option (List Document)

namespace Contents

def empty : Contents := fun _ => none

def documents (contents : Contents) (source : String) : List Document :=
  (contents source).getD []

/-- A document comes behind the others, as it is going to be read. -/
def insert (contents : Contents) (source : String) (document : Document) : Contents :=
  Function.update contents source (some (contents.documents source ++ [document.reread]))

/-- A namespace that was written to stays, even without documents. -/
def delete (contents : Contents) (source : String) (filter : Filter) : Contents :=
  Function.update contents source
    ((contents source).map (·.filter fun document => !filter.accepts document))

/-- How many documents a deletion removes. -/
def removed (contents : Contents) (source : String) (filter : Filter) : Nat :=
  (contents.documents source).countP filter.accepts

def drop (contents : Contents) (source : String) : Contents :=
  Function.update contents source none

def write (contents : Contents) : Write → Contents
  | .insert source document => contents.insert source document
  | .delete source filter => contents.delete source filter

end Contents

/-- What is inserted nests no deeper than readers allow. -/
def Write.Shallow : Write → Prop
  | .insert _ document => document.depth ≤ Json.depthLimit
  | .delete _ _ => True

namespace DocumentStore

/-- What the store has of a namespace: nothing, or a number in the registry and a table
whose rows have smaller numbers and hold the documents. -/
def Keeps (store : DocumentStore) (source : String) : Option (List Document) → Prop
  | none => store.registry.find? source = none ∧ store.tables.find? source = none
  | some documents => ∃ number rows, store.registry.find? source = some number ∧
      store.tables.find? source = some (.documents rows) ∧
      (∀ row ∈ rows.entries, row.1 < number) ∧ Rows.Hold rows.entries documents

def Represents (store : DocumentStore) (contents : Contents) : Prop :=
  ∀ source, store.Keeps source (contents source)

end DocumentStore

namespace Contents

def readings (contents : Contents) : Readings :=
  fun source => (contents source).map (·.map .ok)

theorem rows_readings (contents : Contents) (source : String) :
    contents.readings.rows source = (contents.documents source).map .ok := by
  rw [Readings.rows, readings, documents]
  cases contents source <;> rfl

theorem readings_update (contents : Contents) (source : String) (kept : Option (List Document)) :
    readings (Function.update contents source kept) =
      Function.update contents.readings source (kept.map (·.map .ok)) := by
  funext other
  rw [readings, Function.update_apply, Function.update_apply]
  split <;> rfl

theorem readings_insert (contents : Contents) (source : String) {document : Document}
    (shallow : document.depth ≤ Json.depthLimit) :
    contents.readings.insert source document = (contents.insert source document).readings := by
  rw [Readings.insert, insert, readings_update, rows_readings, Document.readBack_shallow shallow,
    Option.map_some, List.map_append]
  rfl

theorem readings_insertMany (contents : Contents) (source : String) {documents : List Document}
    (shallow : ∀ document ∈ documents, document.depth ≤ Json.depthLimit) :
    documents.foldl (·.insert source) contents.readings =
      (documents.foldl (·.insert source) contents).readings := by
  induction documents generalizing contents with
  | nil => rfl
  | cons document documents ih =>
    obtain ⟨first, later⟩ := List.forall_mem_cons.mp shallow
    rw [List.foldl_cons, List.foldl_cons, readings_insert contents source first, ih _ later]

theorem readings_delete (contents : Contents) (source : String) (filter : Filter) :
    contents.readings.delete source filter =
      .ok ((contents.delete source filter).readings, contents.removed source filter) := by
  have left (documents : List Document) :
      Decoded.keep (fun document => !filter.accepts document) (documents.map .ok) =
        (documents.filter fun document => !filter.accepts document).map .ok := List.filter_map
  rw [Readings.delete, rows_readings, Decoded.faults_map_ok, Decoded.documents_map_ok, delete,
    readings_update, readings, Option.map_map, Option.map_map]
  simp only [Function.comp_def, left]
  rfl

theorem readings_write (contents : Contents) {write : Write} (shallow : write.Shallow) :
    contents.readings.write write = .ok (contents.write write).readings := by
  cases write with
  | insert source document => exact congrArg Except.ok (readings_insert contents source shallow)
  | delete source filter =>
    rw [Readings.write, readings_delete]
    rfl

theorem readings_writes (contents : Contents) {writes : List Write}
    (shallow : ∀ write ∈ writes, write.Shallow) :
    writes.foldlM Readings.write contents.readings =
      .ok (writes.foldl write contents).readings := by
  induction writes generalizing contents with
  | nil => rfl
  | cons write writes ih =>
    obtain ⟨first, later⟩ := List.forall_mem_cons.mp shallow
    rw [List.foldlM_cons, readings_write contents first]
    exact ih _ later

end Contents

namespace DocumentStore

theorem hold_iff (rows : List (Nat × Bytes)) (documents : List Document) :
    Rows.Hold rows documents ↔ Decoded.ofRows rows = documents.map .ok := by
  rw [Rows.Hold, Decoded.ofRows, ← List.forall₂_eq_eq_eq, List.forall₂_map_left_iff,
    List.forall₂_map_right_iff]

theorem represents_iff (store : DocumentStore) (contents : Contents) :
    store.Represents contents ↔ store.Reads contents.readings := by
  refine forall_congr' fun source => ?_
  rw [Contents.readings]
  cases contents source with
  | none => rfl
  | some documents => simp only [Keeps, hold_iff, Option.map_some, ReadsFrom]

theorem empty_represents : empty.Represents .empty := by
  intro source
  exact ⟨rfl, rfl⟩

theorem insert_represents {store : DocumentStore} {contents : Contents}
    (represents : store.Represents contents) (source : String) {document : Document}
    (shallow : document.depth ≤ Json.depthLimit) :
    ∃ after number, store.insert source document = .ok (after, number) ∧
      after.Represents (contents.insert source document) := by
  rw [represents_iff] at represents
  obtain ⟨after, number, inserted, reads⟩ := insert_reads represents source document
  rw [Contents.readings_insert contents source shallow, ← represents_iff] at reads
  exact ⟨after, number, inserted, reads⟩

theorem delete_represents {store : DocumentStore} {contents : Contents}
    (represents : store.Represents contents) (source : String) (filter : Filter) :
    ∃ after, store.delete source filter = .ok (after, contents.removed source filter) ∧
      after.Represents (contents.delete source filter) := by
  rw [represents_iff] at represents
  have deleted := delete_alike represents source filter
  rw [Contents.readings_delete] at deleted
  generalize store.delete source filter = result at deleted
  cases deleted with
  | @ok answer _ same =>
    obtain ⟨after, count⟩ := answer
    obtain ⟨reads, rfl⟩ := same
    exact ⟨after, rfl, (represents_iff ..).mpr reads⟩

theorem apply_represents {store : DocumentStore} {contents : Contents}
    (represents : store.Represents contents) {writes : List Write}
    (shallow : ∀ write ∈ writes, write.Shallow) :
    ∃ after, store.apply writes = .ok after ∧
      after.Represents (writes.foldl Contents.write contents) := by
  rw [represents_iff] at represents
  have applied := apply_alike represents writes
  rw [Contents.readings_writes contents shallow] at applied
  generalize store.apply writes = result at applied
  cases applied with
  | ok reads => exact ⟨_, rfl, (represents_iff ..).mpr reads⟩

theorem insertMany_represents {store : DocumentStore} {contents : Contents}
    (represents : store.Represents contents) (source : String) {documents : List Document}
    (shallow : ∀ document ∈ documents, document.depth ≤ Json.depthLimit) :
    ∃ after numbers, store.insertMany source documents = .ok (after, numbers) ∧
      after.Represents (documents.foldl (·.insert source) contents) := by
  rw [represents_iff] at represents
  obtain ⟨after, numbers, inserted, reads⟩ := insertMany_reads represents source documents
  rw [Contents.readings_insertMany contents source shallow, ← represents_iff] at reads
  exact ⟨after, numbers, inserted, reads⟩

theorem drop_represents {store : DocumentStore} {contents : Contents}
    (represents : store.Represents contents) (source : String) :
    (store.drop source).2 = (contents source).isSome ∧
      (store.drop source).1.Represents (contents.drop source) := by
  rw [represents_iff] at represents
  obtain ⟨existed, reads⟩ := drop_reads represents source
  refine ⟨existed.trans Option.isSome_map, (represents_iff ..).mpr ?_⟩
  rw [Contents.drop, Contents.readings_update]
  exact reads

/-! ## What can be asked of the store -/

theorem find_scan {store : DocumentStore} {contents : Contents}
    (represents : store.Represents contents) (source : String) :
    ∃ cursor, store.find source .scan = .ok cursor ∧ cursor.current = none ∧
      cursor.Scans (contents.documents source) := by
  rw [represents_iff] at represents
  obtain ⟨rows, opened, -, read⟩ := rows?_of_reads (represents source)
  have hold : Rows.Hold (rows.getD .empty).entries (contents.documents source) :=
    (hold_iff ..).mpr (read.trans (contents.rows_readings source))
  refine ⟨_, by rw [find, opened]; rfl, rfl, rfl, ?_⟩
  cases rows with
  | none => exact hold
  | some rows => exact hold

theorem count_eq {store : DocumentStore} {contents : Contents}
    (represents : store.Represents contents) (source : String) :
    store.count source = .ok (contents.documents source).length := by
  rw [represents_iff] at represents
  obtain ⟨rows, opened, -, read⟩ := rows?_of_reads (represents source)
  have counted := congrArg List.length (read.trans (contents.rows_readings source))
  rw [Decoded.ofRows, List.length_map, List.length_map] at counted
  rw [count, opened, ← counted]
  cases rows <;> rfl

theorem mem_namespaces {store : DocumentStore} {contents : Contents}
    (represents : store.Represents contents) (source : String) :
    source ∈ store.namespaces ↔ (contents source).isSome := by
  rw [represents_iff] at represents
  rw [namespaces, SortedMap.mem_keys, contains_registry (represents source), Contents.readings,
    Option.isSome_map]

end DocumentStore
end MetadataClient
