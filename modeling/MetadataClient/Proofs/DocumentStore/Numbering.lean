import MetadataClient.Proofs.DocumentStore.History

/-! Numbers of documents. A namespace gives out the numbers from zero on, one for every document
that is inserted, until it is dropped. Documents that are deleted do not give their numbers
back, and a transaction that fails has taken none. So a row is never overwritten. -/
namespace MetadataClient

def Rows.numbered (first : Nat) (documents : List Document) : List (Nat × Bytes) :=
  (documents.zipIdx first).map fun (document, number) => (number, document.encode)

namespace Rows

theorem numbered_append (first : Nat) (documents later : List Document) :
    numbered first (documents ++ later) =
      numbered first documents ++ numbered (first + documents.length) later := by
  rw [numbered, List.zipIdx_append, List.map_append]
  rfl

theorem lt_of_mem_numbered {first : Nat} {documents : List Document} {row : Nat × Bytes}
    (member : row ∈ numbered first documents) : row.1 < first + documents.length := by
  obtain ⟨⟨document, number⟩, inside, rfl⟩ := List.mem_map.mp member
  exact (List.mem_zipIdx inside).2.1

end Rows

namespace DocumentStore

/-- Those documents that are inserted into a namespace. -/
def insertedInto (source : String) (inserted : List (String × Document)) : List Document :=
  (inserted.filter (·.1 = source)).map (·.2)

/-- The namespace is dropped. -/
def Call.drops (source : String) : Call → Bool
  | .drop target => target == source
  | _ => false

/-- The documents of a namespace that were inserted since it was dropped last, deleted or not. -/
def insertions (source : String) (documents : List Document) : List Event → List Document
  | [] => documents
  | ⟨_, .error _⟩ :: events => insertions source documents events
  | ⟨call, .ok _⟩ :: events =>
    insertions source
      (if call.drops source then [] else documents ++ insertedInto source call.inserted) events

/-- No number that is going to be given out is in use. -/
def Below (source : String) (store : DocumentStore) : Prop :=
  ∀ row ∈ store.stored source, row.1 < store.nextNumber source

/-- Documents came to a namespace and got the next numbers. Other rows may have gone, but none has
changed. -/
structure Takes (source : String) (documents : List Document) (store after : DocumentStore) :
    Prop where
  next : after.nextNumber source = store.nextNumber source + documents.length
  registered : source ∈ after.namespaces ↔ source ∈ store.namespaces ∨ documents ≠ []
  rows : (after.stored source).Sublist
    (store.stored source ++ Rows.numbered (store.nextNumber source) documents)

variable {source : String} {store after : DocumentStore} {documents : List Document}

theorem insertedInto_append (source : String) (inserted more : List (String × Document)) :
    insertedInto source (inserted ++ more) =
      insertedInto source inserted ++ insertedInto source more := by
  rw [insertedInto, List.filter_append, List.map_append]
  rfl

theorem insertedInto_self (source : String) (documents : List Document) :
    insertedInto source (documents.map (source, ·)) = documents := by
  simp [insertedInto, List.filter_map, Function.comp_def]

theorem insertedInto_other {target : String} (different : target ≠ source)
    (documents : List Document) : insertedInto source (documents.map (target, ·)) = [] := by
  simp [insertedInto, List.filter_map, Function.comp_def, different]

theorem Takes.of_sameAt (same : SameAt source store after) : Takes source [] store after := by
  refine ⟨same.nextNumber.symm, ?_, ?_⟩
  · rw [← same.mem_namespaces, ne_eq, eq_self, not_true, or_false]
  · rw [← same.stored]
    exact List.sublist_append_left ..

theorem Takes.trans {last : DocumentStore} {later : List Document}
    (takes : Takes source documents store after) (more : Takes source later after last) :
    Takes source (documents ++ later) store last := by
  constructor
  · rw [more.next, takes.next, List.length_append, Nat.add_assoc]
  · rw [more.registered, takes.registered, or_assoc, ← not_and_or, ← List.append_eq_nil_iff]
  · rw [Rows.numbered_append, ← List.append_assoc, ← takes.next]
    exact more.rows.trans (takes.rows.append_right _)

theorem Takes.below (takes : Takes source documents store after) (below : Below source store) :
    Below source after := by
  intro row member
  rw [takes.next]
  rcases List.mem_append.mp (takes.rows.subset member) with before | taken
  · exact Nat.lt_add_right _ (below row before)
  · exact Rows.lt_of_mem_numbered taken

/-! ## Writes -/

/-- The number of a new document is free, so its row comes behind the others. -/
theorem insert_appends (below : Below source store) {document : Document} {number : Nat}
    (inserted : store.insert source document = .ok (after, number)) :
    number = store.nextNumber source ∧ after.nextNumber source = number + 1 ∧
      source ∈ after.namespaces ∧
      after.stored source = store.stored source ++ [(number, document.encode)] := by
  obtain ⟨rfl, rows, opened, rfl⟩ := exists_of_insert inserted
  refine ⟨rfl, ?_, ?_, ?_⟩
  · rw [nextNumber, SortedMap.find?_insert, if_pos rfl]
    rfl
  · rw [namespaces, SortedMap.mem_keys, SortedMap.contains, SortedMap.find?_insert, if_pos rfl]
    rfl
  · rw [stored_insert, stored_of_rows? opened]
    apply Entries.insert_of_last
    rwa [Below, stored_of_rows? opened] at below

theorem insert_takes_here (below : Below source store) {document : Document} {number : Nat}
    (inserted : store.insert source document = .ok (after, number)) :
    Takes source [document] store after := by
  obtain ⟨rfl, next, registered, rows⟩ := insert_appends below inserted
  refine ⟨next, ?_, ?_⟩
  · exact iff_of_true registered (.inr (List.cons_ne_nil _ _))
  · rw [rows]
    exact List.Sublist.refl _

theorem insert_takes (below : Below source store) {target : String} {document : Document}
    {number : Nat} (inserted : store.insert target document = .ok (after, number)) :
    Takes source (insertedInto source [(target, document)]) store after := by
  by_cases same : target = source
  · subst same
    have here : insertedInto target [(target, document)] = [document] :=
      insertedInto_self target [document]
    rw [here]
    exact insert_takes_here below inserted
  · have nothing : insertedInto source [(target, document)] = [] :=
      insertedInto_other same [document]
    rw [nothing]
    exact .of_sameAt ((insert_local target document).apart inserted same)

theorem delete_takes {target : String} {filter : Filter} {count : Nat}
    (deleted : store.delete target filter = .ok (after, count)) :
    Takes source [] store after := by
  by_cases same : target = source
  · subst same
    cases registered : store.registry.contains target with
    | true =>
      obtain ⟨rows, numbers, opened, -, -, rfl⟩ := exists_of_delete registered deleted
      refine ⟨rfl, ?_, ?_⟩
      · rw [ne_eq, eq_self, not_true, or_false, namespaces, namespaces]
      · rw [stored_insert, stored_of_rows? opened]
        exact List.filter_sublist.trans (List.sublist_append_left ..)
    | false =>
      have unchanged := (delete_unregistered registered filter).symm.trans deleted
      cases unchanged
      exact .of_sameAt (.refl target store)
  · exact .of_sameAt ((delete_local target filter).apart deleted same)

theorem perform_takes (below : Below source store) {write : Write}
    (performed : store.perform write = .ok after) :
    Takes source (insertedInto source write.inserted) store after := by
  cases write with
  | insert target document =>
    obtain ⟨⟨_, number⟩, inserted, rfl⟩ := exists_of_map performed
    exact insert_takes below inserted
  | delete target filter =>
    obtain ⟨⟨_, count⟩, deleted, rfl⟩ := exists_of_map performed
    exact delete_takes deleted

theorem apply_takes (below : Below source store) {writes : List Write}
    (applied : store.apply writes = .ok after) :
    Takes source (insertedInto source (writes.flatMap Write.inserted)) store after := by
  induction writes generalizing store with
  | nil =>
    cases applied
    exact .of_sameAt (.refl source store)
  | cons write writes ih =>
    rw [apply_cons] at applied
    obtain ⟨next, performed, applied⟩ := exists_of_bind applied
    have first := perform_takes below performed
    rw [List.flatMap_cons, insertedInto_append]
    exact first.trans (ih (first.below below) applied)

theorem insertMany_appends (below : Below source store) {numbers : List Nat}
    (inserted : store.insertMany source documents = .ok (after, numbers)) :
    numbers = List.range' (store.nextNumber source) documents.length ∧
      Takes source documents store after ∧
      after.stored source =
        store.stored source ++ Rows.numbered (store.nextNumber source) documents := by
  rw [insertMany_eq_insertEach] at inserted
  induction documents generalizing store numbers with
  | nil =>
    cases inserted
    exact ⟨rfl, .of_sameAt (.refl source _), (List.append_nil _).symm⟩
  | cons document documents ih =>
    obtain ⟨⟨next, number⟩, first, inserted⟩ := exists_of_bind inserted
    obtain ⟨⟨last, others⟩, rest, inserted⟩ := exists_of_bind inserted
    cases inserted
    obtain ⟨rfl, advanced, -, row⟩ := insert_appends below first
    have takes := insert_takes_here below first
    obtain ⟨rfl, later, rows⟩ := ih (takes.below below) rest
    rw [advanced] at rows ⊢
    rw [row, List.append_assoc] at rows
    exact ⟨rfl, takes.trans later, rows⟩

theorem respond_takes (below : Below source store) {call : Call} (stays : call.drops source = false)
    {reply : Reply} (done : store.respond call = .ok (after, reply)) :
    Takes source (insertedInto source call.inserted) store after := by
  cases call with
  | insert target document =>
    obtain ⟨⟨_, number⟩, inserted, ⟨⟩⟩ := exists_of_map done
    exact insert_takes below inserted
  | insertMany target documents =>
    obtain ⟨⟨_, numbers⟩, inserted, ⟨⟩⟩ := exists_of_map done
    rw [Call.inserted]
    by_cases same : target = source
    · subst same
      rw [insertedInto_self]
      exact (insertMany_appends below inserted).2.1
    · rw [insertedInto_other same]
      exact .of_sameAt ((insertMany_local target documents).apart inserted same)
  | delete target filter =>
    obtain ⟨⟨_, count⟩, deleted, ⟨⟩⟩ := exists_of_map done
    exact delete_takes deleted
  | apply writes =>
    obtain ⟨_, applied, ⟨⟩⟩ := exists_of_map done
    exact apply_takes below applied
  | drop target =>
    cases done
    exact .of_sameAt ((drop_local target).apart rfl (by simpa [Call.drops] using stays))
  | reopen =>
    cases done
    exact .of_sameAt (.refl source store)

/-! ## Runs -/

/-- These documents were inserted into a namespace since it began. Its next number is how many
they are, and it is registered if there is one. The number of a row is the place of its
document among them. -/
structure Numbered (source : String) (documents : List Document) (store : DocumentStore) :
    Prop where
  next : store.nextNumber source = documents.length
  registered : source ∈ store.namespaces ↔ documents ≠ []
  rows : (store.stored source).Sublist (Rows.numbered 0 documents)

theorem Numbered.below (numbered : Numbered source documents store) : Below source store := by
  intro row member
  rw [numbered.next, ← Nat.zero_add documents.length]
  exact Rows.lt_of_mem_numbered (numbered.rows.subset member)

theorem Numbered.takes {taken : List Document} (numbered : Numbered source documents store)
    (takes : Takes source taken store after) : Numbered source (documents ++ taken) after := by
  constructor
  · rw [takes.next, numbered.next, List.length_append]
  · rw [takes.registered, numbered.registered, ← not_and_or, ← List.append_eq_nil_iff]
  · rw [Rows.numbered_append, Nat.zero_add, ← numbered.next]
    exact takes.rows.trans (numbered.rows.append_right _)

theorem empty_numbered (source : String) : Numbered source [] empty := by
  refine ⟨rfl, iff_of_false ?_ (fun some => some rfl), List.Sublist.refl []⟩
  exact List.not_mem_nil

/-- A namespace that is dropped begins anew. -/
theorem drop_numbered (store : DocumentStore) (source : String) :
    Numbered source [] (store.drop source).1 :=
  (empty_numbered source).takes (.of_sameAt (drop_sameAt_empty store source).symm)

theorem foreign_numbered (foreign : List String) (numbered : Numbered source [] store) :
    Numbered source [] (foreign.foldl withForeignTable store) := by
  induction foreign generalizing store with
  | nil => exact numbered
  | cons target foreign ih =>
    apply ih
    refine ⟨numbered.next, numbered.registered, ?_⟩
    rw [stored, withForeignTable, SortedMap.find?_insert]
    by_cases same : target = source
    · rw [if_pos same]
      exact List.Sublist.refl []
    · rw [if_neg same]
      exact numbered.rows

theorem eq_drop_of_drops {call : Call} (drops : call.drops source = true) :
    call = .drop source := by
  cases call with
  | drop target => rw [eq_of_beq drops]
  | insert | insertMany | delete | apply | reopen => cases drops

theorem history_numbered (numbered : Numbered source documents store) (calls : List Call) :
    Numbered source (insertions source documents (history respond store calls).2)
      (history respond store calls).1 := by
  induction calls generalizing store documents with
  | nil => exact numbered
  | cons call calls ih =>
    rw [history]
    split
    next after reply done =>
      apply ih
      split
      next drops =>
        rw [eq_drop_of_drops drops] at done
        cases done
        exact drop_numbered store source
      next stays =>
        exact numbered.takes (respond_takes numbered.below (by simpa using stays) done)
    next => exact ih numbered

/-- As long as a namespace is not dropped, documents only come behind those that came before. -/
theorem history_takes (below : Below source store) {calls : List Call}
    (stays : ∀ call ∈ calls, call.drops source = false) :
    ∃ taken, (∀ documents, insertions source documents (history respond store calls).2 =
        documents ++ taken) ∧
      Takes source taken store (history respond store calls).1 := by
  induction calls generalizing store with
  | nil =>
    refine ⟨[], ?_, .of_sameAt (.refl source store)⟩
    intro documents
    exact (List.append_nil documents).symm
  | cons call calls ih =>
    obtain ⟨first, later⟩ := List.forall_mem_cons.mp stays
    rw [history]
    split
    next after reply done =>
      have takes := respond_takes below first done
      obtain ⟨taken, inserted, more⟩ := ih (takes.below below) later
      refine ⟨insertedInto source call.inserted ++ taken, ?_, takes.trans more⟩
      intro documents
      rw [insertions, first, if_neg Bool.false_ne_true, inserted, List.append_assoc]
    next => exact ih below later

/-- What insertions into a namespace return: the numbers from the first one on, if its table can be
opened. Their rows come behind the others, and no row is replaced. -/
structure Assigns (source : String) (first : Nat) (store : DocumentStore) : Prop where
  insert (document : Document) :
    match store.rows? source with
    | .error error => store.insert source document = .error error
    | .ok _ => ∃ after, store.insert source document = .ok (after, first) ∧
        after.stored source = store.stored source ++ [(first, document.encode)]
  insertMany (documents : List Document) :
    match store.rows? source with
    | .error error => documents ≠ [] → store.insertMany source documents = .error error
    | .ok _ => ∃ after,
        store.insertMany source documents = .ok (after, List.range' first documents.length) ∧
        after.stored source = store.stored source ++ Rows.numbered first documents
  apply (earlier : List Write) (document : Document) (later : List Write) (after : DocumentStore) :
    store.apply (earlier ++ .insert source document :: later) = .ok after →
      ∃ reached next number, store.apply earlier = .ok reached ∧
        number = first + (insertedInto source (earlier.flatMap Write.inserted)).length ∧
        reached.insert source document = .ok (next, number) ∧
        next.stored source = reached.stored source ++ [(number, document.encode)] ∧
        next.apply later = .ok after

theorem insert_opens {rows : Option Rows} (opened : store.rows? source = .ok rows)
    (document : Document) :
    ∃ after, store.insert source document = .ok (after, store.nextNumber source) ∧
      after.rows? source =
        .ok (some ((rows.getD .empty).insert (store.nextNumber source) document.encode)) := by
  rw [insert_eq_insertEffect, insertEffect, opened]
  refine ⟨_, rfl, ?_⟩
  rw [rows?, SortedMap.find?_insert, if_pos rfl]

theorem insertMany_opens {rows : Option Rows} (opened : store.rows? source = .ok rows)
    (documents : List Document) :
    ∃ after numbers, store.insertMany source documents = .ok (after, numbers) := by
  rw [insertMany_eq_insertEach]
  induction documents generalizing store rows with
  | nil => exact ⟨store, [], rfl⟩
  | cons document documents ih =>
    obtain ⟨next, inserted, opened⟩ := insert_opens opened document
    obtain ⟨after, numbers, rest⟩ := ih opened
    refine ⟨after, store.nextNumber source :: numbers, ?_⟩
    rw [insertEach, inserted]
    simp only [bind, Except.bind, rest]
    rfl

theorem assigns (below : Below source store) : Assigns source (store.nextNumber source) store := by
  constructor
  · intro document
    cases opened : store.rows? source with
    | error error =>
      rw [insert_eq_insertEffect, insertEffect, opened]
      rfl
    | ok rows =>
      obtain ⟨after, inserted, -⟩ := insert_opens opened document
      exact ⟨after, inserted, (insert_appends below inserted).2.2.2⟩
  · intro documents
    cases opened : store.rows? source with
    | error error =>
      intro some
      cases documents with
      | nil => exact absurd rfl some
      | cons document documents =>
        rw [insertMany_eq_insertEach, insertEach, insert_eq_insertEffect, insertEffect, opened]
        rfl
    | ok rows =>
      obtain ⟨after, numbers, inserted⟩ := insertMany_opens opened documents
      obtain ⟨rfl, -, rows⟩ := insertMany_appends below inserted
      exact ⟨after, inserted, rows⟩
  · intro earlier document later after applied
    rw [apply_append] at applied
    obtain ⟨reached, began, applied⟩ := exists_of_bind applied
    rw [apply_cons] at applied
    obtain ⟨next, performed, ended⟩ := exists_of_bind applied
    obtain ⟨⟨_, number⟩, inserted, rfl⟩ := exists_of_map performed
    have takes := apply_takes below began
    obtain ⟨rfl, -, -, row⟩ := insert_appends (takes.below below) inserted
    exact ⟨reached, _, _, began, takes.next, inserted, row, ended⟩

/-- Whatever was attempted with a store that began empty but for some tables that cannot be opened,
the documents that were inserted into a namespace since it was dropped last have the numbers
from zero on, and the next one gets the number behind them. Deletions, failures and other
namespaces do not count. Until the next drop new documents only come behind, so no number is
given out twice and no row is replaced. -/
theorem numbers_count_insertions (foreign : List String) (calls : List Call) (source : String) :
    let reached := history respond (foreign.foldl withForeignTable empty) calls
    let inserted := insertions source [] reached.2
    Numbered source inserted reached.1 ∧
      Below source reached.1 ∧
      Assigns source inserted.length reached.1 ∧
      ∀ more, (∀ call ∈ more, call.drops source = false) →
        ∃ taken, insertions source inserted (history respond reached.1 more).2 = inserted ++ taken ∧
          Takes source taken reached.1 (history respond reached.1 more).1 := by
  intro reached inserted
  have numbered : Numbered source inserted reached.1 :=
    history_numbered (foreign_numbered foreign (empty_numbered source)) calls
  refine ⟨numbered, numbered.below, numbered.next ▸ assigns numbered.below, ?_⟩
  intro more stays
  obtain ⟨taken, log, takes⟩ := history_takes numbered.below stays
  exact ⟨taken, log inserted, takes⟩

/-- Numbers go on behind documents that were deleted and after a failure. After a drop they begin
at zero again. -/
example :
    (history respond (withForeignTable empty "m") [.insert "n" .empty, .delete "n" .all,
      .apply [.insert "n" .empty, .insert "m" .empty], .insertMany "n" [.empty, .empty], .drop "n",
      .insert "n" .empty]).2.map Event.outcome =
    [.ok (.number 0), .ok (.removed 1), .error .table, .ok (.numbers [1, 2]), .ok (.existed true),
      .ok (.number 0)] := by
  decide +kernel

end DocumentStore
end MetadataClient
