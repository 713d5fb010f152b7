import MetadataClient.Proofs.Document.Depth
import MetadataClient.Proofs.DocumentStore.Selection
import MetadataClient.Proofs.DocumentStore.Transaction
import Mathlib.Logic.Function.Basic

/-! What is read from a store. A store without foreign tables and stray rows is, for its readers, a
map from namespaces to lists of what comes of decoding their rows, and every change of the
store is a change of this map. A document that nests too deep is kept like any other, and a
fault is read for it. -/
namespace MetadataClient

/-- Both succeed, with answers that are related, or both fail in the same way. -/
inductive Alike {ε σ τ : Type} (related : σ → τ → Prop) : Except ε σ → Except ε τ → Prop
  | ok {answer : σ} {other : τ} (same : related answer other) :
      Alike related (.ok answer) (.ok other)
  | error (error : ε) : Alike related (.error error) (.error error)

namespace Alike

variable {ε σ τ σ' τ' α : Type} {related : σ → τ → Prop} {related' : σ' → τ' → Prop}
  {first : Except ε σ} {second : Except ε τ}

theorem exists_of_ok {answer : σ} (alike : Alike related (.ok answer) second) :
    ∃ other, second = .ok other ∧ related answer other := by
  cases alike with
  | ok same => exact ⟨_, rfl, same⟩

theorem eq_error {fault : ε} (alike : Alike related (.error fault) second) :
    second = .error fault := by
  cases alike
  rfl

theorem map (alike : Alike related first second) {tell : σ → σ'} {tell' : τ → τ'}
    (step : ∀ {answer other}, related answer other → related' (tell answer) (tell' other)) :
    Alike related' (first.map tell) (second.map tell') := by
  cases alike with
  | ok same => exact .ok (step same)
  | error error => exact .error error

theorem bind (alike : Alike related first second) {next : σ → Except ε σ'} {next' : τ → Except ε τ'}
    (step : ∀ {answer other}, related answer other → Alike related' (next answer) (next' other)) :
    Alike related' (first >>= next) (second >>= next') := by
  cases alike with
  | ok same => exact step same
  | error error => exact .error error

theorem foldlM {act : σ → α → Except ε σ} {act' : τ → α → Except ε τ}
    (step : ∀ {state other} (action : α), related state other →
      Alike related (act state action) (act' other action))
    {state : σ} {other : τ} (same : related state other) (actions : List α) :
    Alike related (actions.foldlM act state) (actions.foldlM act' other) := by
  induction actions generalizing state other with
  | nil => exact .ok same
  | cons action actions ih =>
    rw [List.foldlM_cons, List.foldlM_cons]
    apply (step action same).bind
    intro answer after later
    exact ih later

end Alike

/-- What is read from the rows of every namespace that has been written to, in their order. -/
abbrev Readings := String → Option (List Decoded)

namespace Readings

def empty : Readings := fun _ => none

def rows (readings : Readings) (source : String) : List Decoded :=
  (readings source).getD []

def insert (readings : Readings) (source : String) (document : Document) : Readings :=
  Function.update readings source (some (readings.rows source ++ [document.readBack]))

/-- Without the documents that the filter accepts, with their number. No row may be unreadable,
not even one that would stay. -/
def delete (readings : Readings) (source : String) (filter : Filter) :
    Except StoreError (Readings × Nat) :=
  match Decoded.faults (readings.rows source) with
  | [] => .ok (Function.update readings source
      ((readings source).map (Decoded.keep fun document => !filter.accepts document)),
      (Decoded.documents (readings.rows source)).countP filter.accepts)
  | fault :: _ => .error (.document fault)

def drop (readings : Readings) (source : String) : Readings :=
  Function.update readings source none

def write (readings : Readings) : Write → Except StoreError Readings
  | .insert source document => .ok (readings.insert source document)
  | .delete source filter => (readings.delete source filter).map (·.1)

end Readings

namespace DocumentStore

/-- What is read of a namespace: nothing, or a number is in the registry and there is a table
whose rows have smaller numbers and are read so. -/
def ReadsFrom (store : DocumentStore) (source : String) : Option (List Decoded) → Prop
  | none => store.registry.find? source = none ∧ store.tables.find? source = none
  | some readings => ∃ number rows, store.registry.find? source = some number ∧
      store.tables.find? source = some (.documents rows) ∧
      (∀ row ∈ rows.entries, row.1 < number) ∧ Decoded.ofRows rows.entries = readings

def Reads (store : DocumentStore) (readings : Readings) : Prop :=
  ∀ source, store.ReadsFrom source (readings source)

theorem empty_reads : empty.Reads .empty := by
  intro source
  exact ⟨rfl, rfl⟩

theorem readsFrom_congr {store after : DocumentStore} {source : String}
    {read : Option (List Decoded)}
    (registry : after.registry.find? source = store.registry.find? source)
    (tables : after.tables.find? source = store.tables.find? source)
    (reads : store.ReadsFrom source read) : after.ReadsFrom source read := by
  cases read with
  | none => exact ⟨registry.trans reads.1, tables.trans reads.2⟩
  | some readings =>
    obtain ⟨number, rows, listed, found, below, same⟩ := reads
    exact ⟨number, rows, registry.trans listed, tables.trans found, below, same⟩

/-- A change of one namespace that leaves the others alone. -/
theorem reads_update {store after : DocumentStore} {readings : Readings}
    (reads : store.Reads readings) {source : String} {read : Option (List Decoded)}
    (registry : ∀ other, source ≠ other →
      after.registry.find? other = store.registry.find? other)
    (tables : ∀ other, source ≠ other → after.tables.find? other = store.tables.find? other)
    (here : after.ReadsFrom source read) :
    after.Reads (Function.update readings source read) := by
  intro other
  by_cases same : source = other
  · subst same
    rwa [Function.update_self]
  · rw [Function.update_of_ne (Ne.symm same)]
    exact readsFrom_congr (registry other same) (tables other same) (reads other)

theorem contains_registry {store : DocumentStore} {source : String}
    {read : Option (List Decoded)} (reads : store.ReadsFrom source read) :
    store.registry.contains source = read.isSome := by
  cases read with
  | none =>
    rw [SortedMap.contains, reads.1]
    rfl
  | some readings =>
    obtain ⟨number, rows, listed, -⟩ := reads
    rw [SortedMap.contains, listed]
    rfl

theorem rows?_of_reads {store : DocumentStore} {source : String} {read : Option (List Decoded)}
    (reads : store.ReadsFrom source read) :
    ∃ rows, store.rows? source = .ok rows ∧
      (∀ row ∈ (rows.getD .empty).entries, row.1 < store.nextNumber source) ∧
      Decoded.ofRows (rows.getD .empty).entries = read.getD [] := by
  cases read with
  | none =>
    refine ⟨none, ?_, nofun, rfl⟩
    rw [rows?, reads.2]
  | some readings =>
    obtain ⟨number, rows, listed, found, below, same⟩ := reads
    refine ⟨some rows, ?_, ?_, same⟩
    · rw [rows?, found]
    · rw [nextNumber, listed]
      exact below

/-! ## Changes -/

variable {store : DocumentStore} {readings : Readings}

theorem insert_reads (reads : store.Reads readings) (source : String) (document : Document) :
    ∃ after number, store.insert source document = .ok (after, number) ∧
      after.Reads (readings.insert source document) := by
  obtain ⟨rows, opened, below, same⟩ := rows?_of_reads (reads source)
  have appended : ((rows.getD .empty).insert (store.nextNumber source) document.encode).entries =
      (rows.getD .empty).entries ++ [(store.nextNumber source, document.encode)] :=
    Entries.insert_of_last _ below
  refine ⟨_, _, by rw [insert_eq_insertEffect, insertEffect, opened]; rfl, ?_⟩
  apply reads_update reads
  · intro other different
    rw [SortedMap.find?_insert, if_neg different]
  · intro other different
    rw [SortedMap.find?_insert, if_neg different]
  · refine ⟨store.nextNumber source + 1,
      (rows.getD .empty).insert (store.nextNumber source) document.encode, ?_, ?_, ?_, ?_⟩
    · rw [SortedMap.find?_insert, if_pos rfl]
    · rw [SortedMap.find?_insert, if_pos rfl]
    · rw [appended]
      intro row member
      rcases List.mem_append.mp member with earlier | last
      · exact Nat.lt_succ_of_lt (below row earlier)
      · rw [List.mem_singleton.mp last]
        exact Nat.lt_succ_self _
    · rw [appended, Decoded.ofRows, List.map_append, List.map_singleton,
        Document.decode_encode_eq_readBack]
      exact congrArg (· ++ [document.readBack]) same

theorem insertMany_reads (reads : store.Reads readings) (source : String)
    (documents : List Document) :
    ∃ after numbers, store.insertMany source documents = .ok (after, numbers) ∧
      after.Reads (documents.foldl (·.insert source) readings) := by
  rw [insertMany_eq_insertEach]
  induction documents generalizing store readings with
  | nil => exact ⟨store, [], rfl, reads⟩
  | cons document documents ih =>
    obtain ⟨next, number, inserted, reads⟩ := insert_reads reads source document
    obtain ⟨after, numbers, rest, reads⟩ := ih reads
    refine ⟨after, number :: numbers, ?_, reads⟩
    rw [insertEach, inserted]
    simp only [bind, Except.bind, rest]
    rfl

/-- The rows are looked at in order. If one of them cannot be read, the first such ends the search,
and else those that a filter accepts are found. -/
theorem accepted_eq (filter : Filter) (rows : List (Nat × Bytes)) :
    accepted filter rows = match Decoded.faults (Decoded.ofRows rows) with
      | fault :: _ => .error (.document fault)
      | [] => .ok ((rows.filter filter.selects).map (·.1)) := by
  induction rows with
  | nil => rfl
  | cons row rows ih =>
    rw [Decoded.ofRows_cons, accepted, ih, List.filter_cons, Filter.selects]
    cases Document.decode row.2 with
    | error fault => rfl
    | ok document =>
      have behind : Decoded.faults (.ok document :: Decoded.ofRows rows) =
        Decoded.faults (Decoded.ofRows rows) := rfl
      rw [behind]
      cases Decoded.faults (Decoded.ofRows rows) with
      | cons fault faults => rfl
      | nil =>
        simp only [Except.mapError, bind, Except.bind]
        split <;> rfl

/-- No two rows have the same number, so all others stay when the selected ones go. -/
theorem filter_unselected (filter : Filter) {rows : List (Nat × Bytes)}
    (ascending : Entries.Ascending rows) :
    (rows.filter fun row => !((rows.filter filter.selects).map (·.1)).contains row.1) =
      rows.filter fun row => !filter.selects row := by
  refine List.filter_congr fun row member => congrArg (!·) ?_
  rw [Bool.eq_iff_iff, List.contains_iff_mem, List.mem_map]
  constructor
  · rintro ⟨other, found, same⟩
    obtain ⟨inside, selected⟩ := List.mem_filter.mp found
    have bytes := Entries.find?_eq_some_of_mem ascending inside
    rw [same, Entries.find?_eq_some_of_mem ascending member] at bytes
    rwa [Prod.ext same (Option.some.inj bytes).symm] at selected
  · intro selected
    exact ⟨row, List.mem_filter.mpr ⟨member, selected⟩, rfl⟩

theorem delete_alike (reads : store.Reads readings) (source : String) (filter : Filter) :
    Alike (fun result expected => result.1.Reads expected.1 ∧ result.2 = expected.2)
      (store.delete source filter) (readings.delete source filter) := by
  have here := reads source
  rw [delete_eq_deleteEffect, deleteEffect, contains_registry here, Readings.delete, Readings.rows]
  cases read : readings source with
  | none =>
    rw [read] at here
    refine .ok ⟨?_, rfl⟩
    apply reads_update reads
    · intro other different
      rfl
    · intro other different
      rfl
    · exact here
  | some found =>
    rw [read] at here
    obtain ⟨number, rows, listed, table, below, rfl⟩ := here
    have opened : store.rows? source = .ok (some rows) := by rw [rows?, table]
    have searched := accepted_eq filter rows.entries
    rw [Option.isSome_some, if_pos rfl, opened, Option.getD_some]
    split at searched
    next fault others faulty =>
      -- All rows are read before any goes, so the filter does not matter.
      simp only [bind, Except.bind, Option.getD_some, faulty, searched]
      exact .error (StoreError.document fault)
    next faultless =>
      simp only [bind, Except.bind, Option.getD_some, faultless, searched]
      rw [List.length_map, Decoded.length_selected]
      refine .ok ⟨?_, rfl⟩
      apply reads_update reads
      · intro other different
        rfl
      · intro other different
        rw [SortedMap.find?_insert, if_neg different]
      · refine ⟨number, _, listed, by rw [SortedMap.find?_insert, if_pos rfl], ?_, ?_⟩
        · intro row member
          exact below row (List.mem_of_mem_filter member)
        · exact (congrArg Decoded.ofRows (filter_unselected filter rows.ascending)).trans
            (Decoded.ofRows_unselected filter rows.entries)

theorem perform_alike (reads : store.Reads readings) (write : Write) :
    Alike Reads (store.perform write) (readings.write write) := by
  cases write with
  | insert source document =>
    obtain ⟨after, number, inserted, next⟩ := insert_reads reads source document
    rw [perform, inserted]
    exact .ok next
  | delete source filter =>
    apply (delete_alike reads source filter).map
    intro result expected same
    exact same.1

theorem apply_alike (reads : store.Reads readings) (writes : List Write) :
    Alike Reads (store.apply writes) (writes.foldlM Readings.write readings) := by
  rw [apply_eq_foldlM]
  apply Alike.foldlM _ reads
  intro store readings write reads
  exact perform_alike reads write

theorem drop_reads (reads : store.Reads readings) (source : String) :
    (store.drop source).2 = (readings source).isSome ∧
      (store.drop source).1.Reads (readings.drop source) := by
  constructor
  · exact contains_registry (reads source)
  · apply reads_update reads
    · intro other different
      rw [drop, SortedMap.find?_erase, if_neg different]
    · intro other different
      rw [drop, SortedMap.find?_erase, if_neg different]
    · constructor
      · rw [drop, SortedMap.find?_erase, if_pos rfl]
      · rw [drop, SortedMap.find?_erase, if_pos rfl]

end DocumentStore
end MetadataClient
