import MetadataClient.Proofs.DocumentStore.Locality

/-! Deletions, scans and counts. They go through the rows of a namespace each in its own way: a
deletion reads all of them before it removes any, a scan reads one after the other, and a count
reads none. In whatever state the store is, they agree about what is there. -/
namespace MetadataClient
namespace Cursor

def Move.meets (move : Move) : Bool :=
  match move.answer with
  | .ok found => found
  | .error _ => true

theorem Move.countP_meets_along (returned : Nat) (ahead : List Decoded) (steps : Nat) :
    (along returned ahead steps).countP meets = min steps ahead.length := by
  induction steps generalizing returned ahead with
  | zero => rw [along, List.countP_nil, Nat.zero_min]
  | succ steps ih =>
    rw [along, List.countP_cons, ih]
    rcases ahead with _ | ⟨fault | document, later⟩
    · exact Nat.min_zero steps
    · exact (Nat.succ_min_succ ..).symm
    · exact (Nat.succ_min_succ ..).symm

theorem collect_pending (cursor : Cursor) :
    cursor.collect.2 = (Decoded.faults cursor.pending).head?.map .document ∧
      (Decoded.faults cursor.pending = [] →
        cursor.collect.1 = Decoded.documents cursor.pending) := by
  generalize ahead : cursor.pending = readings
  induction readings generalizing cursor with
  | nil =>
    obtain ⟨after, moved, -⟩ := cursor.advance_next
    rw [ahead] at moved
    rw [collect_of_advance moved]
    exact ⟨rfl, fun _ => rfl⟩
  | cons reading readings ih =>
    obtain ⟨after, moved, current, -, behind⟩ := cursor.advance_next
    rw [ahead] at moved current behind
    rw [collect_of_advance moved]
    cases reading with
    | error fault => exact ⟨rfl, nofun⟩
    | ok document =>
      obtain ⟨failure, documents⟩ := ih after behind
      refine ⟨failure, ?_⟩
      intro faultless
      exact congrArg₂ (fun first rest => first.toList ++ rest) current (documents faultless)

end Cursor

namespace DocumentStore

variable {store after : DocumentStore} {source : String} {filter : Filter}

/-- All that a scan for some documents of a namespace yields. -/
def scanned (store : DocumentStore) (source : String) (filter : Filter) :
    Except StoreError (List Document × Option StoreError) :=
  (store.find source (.only filter)).map Cursor.collect

def decoded (store : DocumentStore) (source : String) : List Decoded :=
  Decoded.ofRows (store.stored source)

/-- A scan yields all documents that the filter accepts if no row is unreadable, whether the filter
would accept it or not, and otherwise it ends with a failure. -/
theorem scanned_eq {rows : Option Rows} (opened : store.rows? source = .ok rows)
    (filter : Filter) : ∃ documents,
      store.scanned source filter =
        .ok (documents, (Decoded.faults (store.decoded source)).head?.map .document) ∧
      (Decoded.faults (store.decoded source) = [] →
        documents = (Decoded.documents (store.decoded source)).filter filter.accepts) := by
  obtain ⟨cursor, found, -, -, -, pending⟩ := find_pending opened (.only filter)
  rw [← stored_of_rows? opened, ← decoded, FindOptions.walk_only] at pending
  obtain ⟨failure, documents⟩ := cursor.collect_pending
  rw [pending, Decoded.faults_keep] at failure documents
  rw [Decoded.documents_keep] at documents
  refine ⟨cursor.collect.1, ?_, documents⟩
  rw [scanned, found, ← failure]
  rfl

/-- A deletion of what a filter accepts, with the number of documents removed. -/
structure Removes (store : DocumentStore) (source : String) (filter : Filter) (count : Nat)
    (after : DocumentStore) : Prop where
  emptied : after.scanned source filter = .ok ([], none)
  counted : ∃ left, store.count source = .ok (left + count) ∧ after.count source = .ok left
  scan : ∃ documents, store.scanned source .all = .ok (documents, none) ∧
    after.scanned source .all =
      .ok (documents.filter fun document => !filter.accepts document, none)
  rows : after.stored source = (store.stored source).filter fun row => !filter.selects row
  registry : after.registry = store.registry
  others (other : String) : source ≠ other → SameAt other store after

/-- What a deletion does, as told by a scan for the same documents. -/
def DeletesScanned (store : DocumentStore) (source : String) (filter : Filter) : Prop :=
  match store.scanned source filter with
  | .ok (documents, none) => ∃ after, Transaction.settle (.delete source filter) store =
      (.ok documents.length, after) ∧ store.Removes source filter documents.length after
  | .ok (_, some error) | .error error =>
    Transaction.settle (.delete source filter) store = (.error error, store)

/-- A deletion reads all rows of its namespace before it removes any. -/
theorem delete_registered (registered : store.registry.contains source = true)
    {rows : Option Rows} (opened : store.rows? source = .ok rows) (filter : Filter) :
    store.delete source filter = match Decoded.faults (store.decoded source) with
      | fault :: _ => .error (.document fault)
      | [] => .ok (⟨store.registry, store.tables.insert source
          (.documents ((rows.getD .empty).filter fun row => !filter.selects row))⟩,
          ((store.stored source).filter filter.selects).length) := by
  rw [delete_eq_deleteEffect, deleteEffect, if_pos registered, opened, decoded,
    stored_of_rows? opened]
  simp only [bind, Except.bind, accepted_eq]
  cases Decoded.faults (Decoded.ofRows (rows.getD .empty).entries) with
  | cons fault faults => rfl
  | nil =>
    simp only [SortedMap.filter, filter_unselected filter (rows.getD .empty).ascending,
      List.length_map]
    rfl

theorem count_stored {rows : Option Rows} (opened : store.rows? source = .ok rows) :
    store.count source = .ok (store.stored source).length := by
  rw [count, opened, stored_of_rows? opened]
  cases rows <;> rfl

theorem delete_allOrNothing (source : String) (filter : Filter) :
    AllOrNothing (.delete source filter) (delete · source filter) :=
  allOrNothing_of_commit fun _ => rfl

/-- If all rows can be read, those that are selected go, and nothing else is changed. -/
theorem delete_removes (registered : store.registry.contains source = true) {rows : Option Rows}
    (opened : store.rows? source = .ok rows) (filter : Filter)
    (readable : Decoded.faults (store.decoded source) = []) :
    ∃ after, store.delete source filter =
        .ok (after, ((store.stored source).filter filter.selects).length) ∧
      store.Removes source filter ((store.stored source).filter filter.selects).length after := by
  have deleted := delete_registered registered opened filter
  rw [readable] at deleted
  refine ⟨_, deleted, ?_⟩
  generalize left : (⟨store.registry, store.tables.insert source (.documents
    ((rows.getD .empty).filter fun row => !filter.selects row))⟩ : DocumentStore) = after at deleted
  have opens : after.rows? source =
      .ok (some ((rows.getD .empty).filter fun row => !filter.selects row)) := by
    rw [← left, rows?, SortedMap.find?_insert, if_pos rfl]
  have kept : after.stored source =
      (store.stored source).filter fun row => !filter.selects row := by
    rw [stored_of_rows? opens, stored_of_rows? opened]
    rfl
  have decodes : after.decoded source =
      Decoded.keep (fun document => !filter.accepts document) (store.decoded source) := by
    rw [decoded, kept, Decoded.ofRows_unselected]
    rfl
  have faultless : Decoded.faults (after.decoded source) = [] := by
    rw [decodes, Decoded.faults_keep, readable]
  constructor
  · obtain ⟨documents, scanned, all⟩ := scanned_eq opens filter
    have none : documents = [] := by
      rw [all faultless, decodes, Decoded.documents_keep, List.filter_filter]
      simp
    rw [scanned, faultless, none]
    rfl
  · refine ⟨_, ?_, count_stored opens⟩
    rw [count_stored opened, kept, Nat.add_comm, ← List.length_eq_length_filter_add]
  · obtain ⟨before, scanned, all⟩ := scanned_eq opened .all
    obtain ⟨documents, scanned', all'⟩ := scanned_eq opens .all
    refine ⟨before, by rw [scanned, readable]; rfl, ?_⟩
    rw [scanned', faultless, all' faultless, all readable, decodes, Decoded.documents_keep,
      List.filter_comm]
    rfl
  · exact kept
  · rw [← left]
  · intro other different
    exact (delete_local source filter).apart deleted different

theorem deletesScanned_of_registered (registered : store.registry.contains source = true)
    (filter : Filter) : store.DeletesScanned source filter := by
  have settles := delete_allOrNothing source filter
  rw [DeletesScanned]
  cases opened : store.rows? source with
  | error error =>
    have closed : store.scanned source filter = .error error := by
      rw [scanned, find, opened]
      rfl
    rw [closed]
    refine (settles.failure store store error).mpr ⟨?_, rfl⟩
    rw [delete_eq_deleteEffect, deleteEffect, if_pos registered, opened]
    rfl
  | ok rows =>
    obtain ⟨documents, scanned, all⟩ := scanned_eq opened filter
    rw [scanned]
    cases readable : Decoded.faults (store.decoded source) with
    | cons fault faults =>
      refine (settles.failure store store (.document fault)).mpr ⟨?_, rfl⟩
      rw [delete_registered registered opened filter, readable]
    | nil =>
      obtain ⟨after, deleted, removes⟩ := delete_removes registered opened filter readable
      have counted : ((store.stored source).filter filter.selects).length = documents.length := by
        rw [Decoded.length_selected, all readable, List.countP_eq_length_filter]
        rfl
      rw [counted] at deleted removes
      exact ⟨after, (settles.success store after documents.length).mpr deleted, removes⟩

/-- Deletions, scans and counts agree, in every store, whatever rows it has. In a namespace that is
registered a deletion removes what a scan for the same filter yields, and fails without a
trace if this scan fails. Elsewhere it does nothing. A count is how many moves of an
unrestricted scan meet a document or a failure, as far as the scan is followed. -/
theorem deletions_agree_with_scans (store : DocumentStore) (source : String) :
    (source ∈ store.namespaces → ∀ filter, store.DeletesScanned source filter) ∧
    (source ∉ store.namespaces → ∀ filter,
      Transaction.settle (.delete source filter) store = (.ok 0, store)) ∧
    match store.rows? source with
    | .error error => store.find source .scan = .error error ∧ store.count source = .error error
    | .ok _ => ∃ cursor count, store.find source .scan = .ok cursor ∧
        store.count source = .ok count ∧
        ∀ events, (cursor.moves store events).countP Cursor.Move.meets =
          min (Cursor.advances events) count := by
  rw [namespaces, SortedMap.mem_keys]
  refine ⟨?_, ?_, ?_⟩
  · intro registered filter
    exact deletesScanned_of_registered registered filter
  · intro unregistered filter
    refine ((delete_allOrNothing source filter).success store store 0).mpr ?_
    exact delete_unregistered (Bool.eq_false_iff.mpr unregistered) filter
  · cases opened : store.rows? source with
    | error error =>
      rw [find, count, opened]
      exact ⟨rfl, rfl⟩
    | ok rows =>
      obtain ⟨cursor, found, -, -, -, pending⟩ := find_pending opened .scan
      refine ⟨cursor, _, found, count_stored opened, ?_⟩
      intro events
      rw [Cursor.moves_eq_along, Cursor.Move.countP_meets_along, pending, FindOptions.walk_scan,
        Decoded.ofRows, List.length_map, stored_of_rows? opened]

/-- Nothing is deleted next to a row that cannot be read, not even if nothing would be found. -/
example :
    ((withRow empty "n" 4 []).insert "n" .empty >>= fun (store, _) =>
      (store.delete "n" (.equals "name" (.string "first"))).map (·.2)) =
        .error (.document .endOfText) := by
  decide +kernel

end DocumentStore
end MetadataClient
