import MetadataClient.Proofs.DocumentStore.Search

/-! Documents that are kept but cannot be read. Any document can be inserted, but one that nests
deeper than readers allow is a fault for every cursor that meets it, and until its namespace is
dropped nothing can be deleted from there. Nothing else that is done with a store that began
empty fails. -/
namespace MetadataClient

/-- How many documents of every namespace cannot be read. -/
abbrev Unreadable := String → Nat

/-- The documents that are inserted, with their namespaces. -/
def Write.inserted : Write → List (String × Document)
  | .insert source document => [(source, document)]
  | .delete .. => []

namespace DocumentStore

def Call.inserted : Call → List (String × Document)
  | .insert source document => [(source, document)]
  | .insertMany source documents => documents.map (source, ·)
  | .apply writes => writes.flatMap Write.inserted
  | .delete .. | .drop .. | .reopen => []

def use (store : DocumentStore) (call : Call) : Except StoreError DocumentStore :=
  (store.call call).map (·.1)

end DocumentStore

open DocumentStore (Call)

/-- All that is attempted, one after the other, and how each of it fails, if it does. What
fails changes nothing. -/
def attempts {σ : Type} (use : σ → Call → Except StoreError σ) (state : σ) :
    List Call → σ × List (Option StoreError)
  | [] => (state, [])
  | call :: calls =>
    match use state call with
    | .ok after => ((attempts use after calls).1, none :: (attempts use after calls).2)
    | .error error => ((attempts use state calls).1, some error :: (attempts use state calls).2)

theorem attempts_alike {σ τ : Type} {related : σ → τ → Prop}
    {use : σ → Call → Except StoreError σ} {use' : τ → Call → Except StoreError τ}
    (step : ∀ {state other}, related state other →
      ∀ call, Alike related (use state call) (use' other call))
    {state : σ} {other : τ} (same : related state other) (calls : List Call) :
    related (attempts use state calls).1 (attempts use' other calls).1 ∧
      (attempts use state calls).2 = (attempts use' other calls).2 := by
  induction calls generalizing state other with
  | nil => exact ⟨same, rfl⟩
  | cons call calls ih =>
    have alike := step same call
    rw [attempts, attempts]
    generalize use state call = first at alike ⊢
    generalize use' other call = second at alike ⊢
    cases alike with
    | ok next =>
      obtain ⟨states, failures⟩ := ih next
      exact ⟨states, congrArg (none :: ·) failures⟩
    | error error =>
      obtain ⟨states, failures⟩ := ih same
      exact ⟨states, congrArg (some error :: ·) failures⟩

namespace Unreadable

def none : Unreadable := fun _ => 0

/-- Every document is accepted, but only a shallow one can be read. -/
def insert (unreadable : Unreadable) (source : String) (document : Document) : Unreadable :=
  if document.depth ≤ Json.depthLimit then unreadable
  else Function.update unreadable source (unreadable source + 1)

/-- A deletion has to read all documents, whatever its filter accepts. -/
def delete (unreadable : Unreadable) (source : String) : Except StoreError Unreadable :=
  if unreadable source = 0 then .ok unreadable else .error (.document .malformed)

def write (unreadable : Unreadable) : Write → Except StoreError Unreadable
  | .insert source document => .ok (unreadable.insert source document)
  | .delete source _ => unreadable.delete source

def use (unreadable : Unreadable) : Call → Except StoreError Unreadable
  | .insert source document => .ok (unreadable.insert source document)
  | .insertMany source documents => .ok (documents.foldl (·.insert source) unreadable)
  | .delete source _ => unreadable.delete source
  | .apply writes => writes.foldlM write unreadable
  | .drop source => .ok (Function.update unreadable source 0)
  | .reopen => .ok unreadable

end Unreadable

namespace Readings

/-- The same use of what is read from the store. -/
def use (readings : Readings) : Call → Except StoreError Readings
  | .insert source document => .ok (readings.insert source document)
  | .insertMany source documents => .ok (documents.foldl (·.insert source) readings)
  | .delete source filter => (readings.delete source filter).map (·.1)
  | .apply writes => writes.foldlM write readings
  | .drop source => .ok (readings.drop source)
  | .reopen => .ok readings

/-- So many rows cannot be read, all of them for the same reason. -/
def Lack (readings : Readings) (unreadable : Unreadable) : Prop :=
  ∀ source, Decoded.faults (readings.rows source) =
    List.replicate (unreadable source) .malformed

variable {readings : Readings} {unreadable : Unreadable}

theorem empty_lack : empty.Lack .none := by
  intro source
  rfl

theorem rows_update (readings : Readings) (source : String) (read : Option (List Decoded))
    (other : String) : rows (Function.update readings source read) other =
      if other = source then read.getD [] else readings.rows other := by
  rw [rows, Function.update_apply]
  split <;> rfl

theorem lack_update (lack : readings.Lack unreadable) (source : String)
    {read : Option (List Decoded)} {count : Nat}
    (here : Decoded.faults (read.getD []) = List.replicate count .malformed) :
    Lack (Function.update readings source read) (Function.update unreadable source count) := by
  intro other
  rw [rows_update, Function.update_apply]
  split
  · exact here
  · exact lack other

theorem insert_lack (lack : readings.Lack unreadable) (source : String) (document : Document) :
    (readings.insert source document).Lack (unreadable.insert source document) := by
  rw [insert, Unreadable.insert, Document.readBack]
  split
  next shallow =>
    -- The rows change, but not the faults among them.
    have here : Decoded.faults ((some (readings.rows source ++ [.ok document.reread])).getD []) =
        List.replicate (unreadable source) .malformed := by
      rw [Option.getD_some, Decoded.faults_append, lack source]
      exact List.append_nil _
    have kept := lack_update lack source here
    rwa [Function.update_eq_self] at kept
  next deep =>
    apply lack_update lack source
    rw [Option.getD_some, Decoded.faults_append, lack source, List.replicate_succ']
    rfl

theorem insertMany_lack (lack : readings.Lack unreadable) (source : String)
    (documents : List Document) : Lack (documents.foldl (·.insert source) readings)
      (documents.foldl (·.insert source) unreadable) := by
  induction documents generalizing readings unreadable with
  | nil => exact lack
  | cons document documents ih => exact ih (insert_lack lack source document)

theorem delete_lack (lack : readings.Lack unreadable) (source : String) (filter : Filter) :
    Alike Lack ((readings.delete source filter).map (·.1)) (unreadable.delete source) := by
  rw [delete, Unreadable.delete, lack source]
  cases count : unreadable source with
  | succ count => exact .error (StoreError.document .malformed)
  | zero =>
    refine .ok ?_
    -- There is no fault among the rows that stay, as there was none before.
    have here : Decoded.faults (((readings source).map
        (Decoded.keep fun document => !filter.accepts document)).getD []) =
        List.replicate (unreadable source) .malformed := by
      have before := lack source
      rw [rows] at before
      rw [← before]
      cases readings source with
      | none => rfl
      | some found => exact Decoded.faults_keep ..
    have kept := lack_update lack source here
    rwa [Function.update_eq_self] at kept

theorem write_lack (lack : readings.Lack unreadable) (write : Write) :
    Alike Lack (readings.write write) (unreadable.write write) := by
  cases write with
  | insert source document => exact .ok (insert_lack lack source document)
  | delete source filter => exact delete_lack lack source filter

theorem use_lack (lack : readings.Lack unreadable) (call : Call) :
    Alike Lack (readings.use call) (unreadable.use call) := by
  cases call with
  | insert source document => exact .ok (insert_lack lack source document)
  | insertMany source documents => exact .ok (insertMany_lack lack source documents)
  | delete source filter => exact delete_lack lack source filter
  | apply writes =>
    refine Alike.foldlM ?_ lack writes
    intro readings unreadable write lack
    exact write_lack lack write
  | drop source => exact .ok (lack_update lack source rfl)
  | reopen => exact .ok lack

end Readings

namespace Unreadable

variable {unreadable : Unreadable} {source : String}

theorem insert_shallow {target : String} {document : Document}
    (shallow : target = source → document.depth ≤ Json.depthLimit) :
    unreadable.insert target document source = unreadable source := by
  rw [insert]
  split
  · rfl
  next deep =>
    have other : source ≠ target := fun same => deep (shallow same.symm)
    rw [Function.update_of_ne other]

theorem insertMany_shallow {target : String} {documents : List Document}
    (shallow : ∀ document ∈ documents, target = source → document.depth ≤ Json.depthLimit) :
    documents.foldl (·.insert target) unreadable source = unreadable source := by
  induction documents generalizing unreadable with
  | nil => rfl
  | cons document documents ih =>
    obtain ⟨first, later⟩ := List.forall_mem_cons.mp shallow
    rw [List.foldl_cons, ih later, insert_shallow first]

theorem eq_of_delete {target : String} {after : Unreadable}
    (deleted : unreadable.delete target = .ok after) : after = unreadable := by
  rw [delete] at deleted
  split at deleted
  · cases deleted
    rfl
  · cases deleted

/-- What is inserted into a namespace can be read. -/
def Spares (source : String) (inserted : List (String × Document)) : Prop :=
  ∀ document, (source, document) ∈ inserted → document.depth ≤ Json.depthLimit

theorem write_spares {write : Write} (spares : Spares source write.inserted) {after : Unreadable}
    (written : unreadable.write write = .ok after) : after source = unreadable source := by
  cases write with
  | insert target document =>
    cases written
    apply insert_shallow
    rintro rfl
    exact spares document List.mem_cons_self
  | delete target filter => rw [eq_of_delete written]

theorem apply_spares {writes : List Write}
    (spares : Spares source (writes.flatMap Write.inserted)) {after : Unreadable}
    (written : writes.foldlM Unreadable.write unreadable = .ok after) :
    after source = unreadable source := by
  induction writes generalizing unreadable with
  | nil =>
    cases written
    rfl
  | cons write writes ih =>
    rw [List.foldlM_cons] at written
    obtain ⟨next, step, written⟩ := DocumentStore.exists_of_bind written
    have first : next source = unreadable source :=
      write_spares (fun document member => spares document (List.mem_append_left _ member)) step
    have later : after source = next source :=
      ih (fun document member => spares document (List.mem_append_right _ member)) written
    exact later.trans first

/-- A namespace without unreadable documents gets none, unless one is inserted. -/
theorem use_spares {call : Call} (spares : Spares source call.inserted)
    (readable : unreadable source = 0) {after : Unreadable}
    (used : unreadable.use call = .ok after) : after source = 0 := by
  cases call with
  | insert target document =>
    cases used
    rw [insert_shallow, readable]
    rintro rfl
    exact spares document List.mem_cons_self
  | insertMany target documents =>
    cases used
    rw [insertMany_shallow, readable]
    rintro document member rfl
    exact spares document (List.mem_map_of_mem member)
  | delete target filter => rw [eq_of_delete used, readable]
  | apply writes => exact (apply_spares spares used).trans readable
  | drop target =>
    cases used
    rw [Function.update_apply]
    split
    · rfl
    · exact readable
  | reopen =>
    cases used
    exact readable

theorem attempts_spares {calls : List Call} (spares : Spares source (calls.flatMap Call.inserted))
    (readable : unreadable source = 0) : (attempts use unreadable calls).1 source = 0 := by
  induction calls generalizing unreadable with
  | nil => exact readable
  | cons call calls ih =>
    have later : Spares source (calls.flatMap Call.inserted) :=
      fun document member => spares document (List.mem_append_right _ member)
    rw [attempts]
    split
    next after used =>
      apply ih later
      exact use_spares (fun document member => spares document (List.mem_append_left _ member))
        readable used
    next => exact ih later readable

end Unreadable

namespace DocumentStore

variable {store : DocumentStore} {readings : Readings}

theorem use_alike (reads : store.Reads readings) (call : Call) :
    Alike Reads (store.use call) (readings.use call) := by
  rw [use]
  cases call with
  | insert source document =>
    obtain ⟨after, number, inserted, next⟩ := insert_reads reads source document
    rw [DocumentStore.call, inserted]
    exact .ok next
  | insertMany source documents =>
    obtain ⟨after, numbers, inserted, next⟩ := insertMany_reads reads source documents
    rw [DocumentStore.call, inserted]
    exact .ok next
  | delete source filter =>
    have alike := delete_alike reads source filter
    rw [DocumentStore.call, Readings.use]
    generalize store.delete source filter = first at alike ⊢
    generalize readings.delete source filter = second at alike ⊢
    cases alike with
    | ok same => exact .ok same.1
    | error error => exact .error error
  | apply writes =>
    have alike := apply_alike reads writes
    rw [DocumentStore.call, Readings.use]
    generalize store.apply writes = first at alike ⊢
    generalize writes.foldlM Readings.write readings = second at alike ⊢
    cases alike with
    | ok same => exact .ok same
    | error error => exact .error error
  | drop source => exact .ok (drop_reads reads source).2
  | reopen => exact .ok reads

/-- What can be seen of a namespace with so many unreadable documents. -/
structure Tells (store : DocumentStore) (source : String) (count : Nat) : Prop where
  delete (filter : Filter) :
    if count = 0 then ∃ result, store.delete source filter = .ok result
    else store.delete source filter = .error (.document .malformed)
  find (options : FindOptions) : ∃ cursor, store.find source options = .ok cursor ∧
    ∀ events, ∃ told ≤ count, (cursor.moves store events).filterMap Cursor.Move.failure? =
        List.replicate told (.document .malformed) ∧
      (options.limit = 0 → (∃ move ∈ cursor.moves store events, move.answer = .ok false) →
        told = count)

theorem tells_of_lack (reads : store.Reads readings) {unreadable : Unreadable}
    (lack : readings.Lack unreadable) (source : String) :
    store.Tells source (unreadable source) := by
  constructor
  · intro filter
    have alike := delete_alike reads source filter
    rw [Readings.delete, lack source] at alike
    generalize store.delete source filter = deleted at alike ⊢
    cases count : unreadable source with
    | zero =>
      rw [count] at alike
      cases alike with
      | ok same => exact ⟨_, rfl⟩
    | succ count' =>
      rw [count] at alike
      cases alike with
      | error error => rfl
  · intro options
    obtain ⟨rows, opened, -, same⟩ := rows?_of_reads (reads source)
    have searches := searches store source options
    rw [Searches, opened] at searches
    obtain ⟨cursor, found, -, -, shows⟩ := searches
    refine ⟨cursor, found, ?_⟩
    intro events
    obtain ⟨-, shows⟩ := shows events
    have faults : Decoded.faults (Decoded.ofRows (rows.getD .empty).entries) =
        List.replicate (unreadable source) .malformed := by
      rw [same]
      exact lack source
    generalize Decoded.ofRows (rows.getD .empty).entries = readings at shows faults
    obtain ⟨within, all⟩ := options.faults_walk readings
    have told : (Decoded.faults ((options.walk readings).take
        (cursor.moves store events).length)) <+: List.replicate (unreadable source) .malformed :=
      faults ▸ ((List.take_prefix ..).filterMap _).trans within
    obtain ⟨fewer, same⟩ := List.prefix_replicate_iff.mp told
    refine ⟨_, fewer, ?_, ?_⟩
    · rw [shows.failed, same, List.map_replicate, List.length_replicate]
    · intro unlimited ended
      rw [shows.take_of_ended ended, all unlimited, faults, List.length_replicate]

/-- Whatever is attempted with a store that began empty, what fails and what can be seen of a
namespace is told by the number of its unreadable documents. There are none of them if every
document that was inserted there nests at most 127 levels. -/
theorem attempts_tell (calls : List Call) :
    (attempts use empty calls).2 = (attempts Unreadable.use .none calls).2 ∧
    ∀ source,
      (attempts use empty calls).1.Tells source
        ((attempts Unreadable.use .none calls).1 source) ∧
      ((∀ document, (source, document) ∈ calls.flatMap Call.inserted → document.depth ≤ 127) →
        (attempts Unreadable.use .none calls).1 source = 0) := by
  obtain ⟨reads, failures⟩ := attempts_alike use_alike empty_reads calls
  obtain ⟨lack, expected⟩ := attempts_alike Readings.use_lack Readings.empty_lack calls
  refine ⟨failures.trans expected, ?_⟩
  intro source
  refine ⟨tells_of_lack reads lack source, ?_⟩
  intro spares
  exact Unreadable.attempts_spares spares rfl

/-- A document with one level too many is accepted. The first cursor that meets it fails, and so
does the attempt to delete it. -/
theorem insert_unreadable : ∃ after number, empty.insert "n" (.boxed 127) = .ok (after, number) ∧
    (∃ cursor, after.find "n" .scan = .ok cursor ∧
      cursor.advance.1 = .error (.document .malformed)) ∧
    after.delete "n" .all = .error (.document .malformed) := by
  have deep : (Document.boxed 127).readBack = .error .malformed := by
    rw [Document.readBack, Document.depth_boxed]
    rfl
  obtain ⟨after, number, inserted, reads⟩ := insert_reads empty_reads "n" (.boxed 127)
  have single : (Readings.empty.insert "n" (.boxed 127)).rows "n" = [.error .malformed] := by
    rw [Readings.insert, Readings.rows, Function.update_self, deep]
    rfl
  refine ⟨after, number, inserted, ?_, ?_⟩
  · obtain ⟨rows, opened, -, same⟩ := rows?_of_reads (reads "n")
    have searches := searches after "n" .scan
    rw [Searches, opened] at searches
    obtain ⟨cursor, found, -, -, shows⟩ := searches
    refine ⟨cursor, found, ?_⟩
    have met := (shows [.advance]).2.met
    rw [same.trans single] at met
    exact congrArg Cursor.Move.answer (List.cons.inj met).1
  · have alike := delete_alike reads "n" .all
    rw [Readings.delete, single] at alike
    generalize after.delete "n" .all = deleted at alike ⊢
    cases alike with
    | error error => rfl

end DocumentStore
end MetadataClient
