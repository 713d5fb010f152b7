import MetadataClient.Proofs.DocumentStore.Contents
import MetadataClient.Proofs.Text.ByteOrder

/-! Runs of a document store. Whatever is done with a store that began empty, it shows what
a map from namespaces to lists of documents shows. -/
namespace MetadataClient
namespace DocumentStore

/-- A use of the store. One that is closed and opened again has all that was committed. -/
inductive Call
  | insert (source : String) (document : Document)
  | insertMany (source : String) (documents : List Document)
  | delete (source : String) (filter : Filter)
  | apply (writes : List Write)
  | drop (source : String)
  | reopen

/-- What a use tells, the numbers of new documents apart. -/
inductive Answer
  | done
  | removed (count : Nat)
  | existed (answer : Bool)
deriving DecidableEq

def call (store : DocumentStore) : Call → Except StoreError (DocumentStore × Answer)
  | .insert source document => (store.insert source document).map fun (after, _) => (after, .done)
  | .insertMany source documents =>
    (store.insertMany source documents).map fun (after, _) => (after, .done)
  | .delete source filter =>
    (store.delete source filter).map fun (after, count) => (after, .removed count)
  | .apply writes => (store.apply writes).map fun after => (after, .done)
  | .drop source => .ok ((store.drop source).1, .existed (store.drop source).2)
  | .reopen => .ok (store, .done)

def run (store : DocumentStore) : List Call → Except StoreError (DocumentStore × List Answer)
  | [] => .ok (store, [])
  | call :: rest => do
    let (after, answer) ← store.call call
    let (last, answers) ← after.run rest
    return (last, answer :: answers)

/-- What is inserted nests no deeper than readers allow. -/
def Call.Shallow : Call → Prop
  | .insert _ document => document.depth ≤ Json.depthLimit
  | .insertMany _ documents => ∀ document ∈ documents, document.depth ≤ Json.depthLimit
  | .apply writes => ∀ write ∈ writes, write.Shallow
  | .delete .. | .drop .. | .reopen => True

end DocumentStore

namespace Contents

open DocumentStore (Call Answer)

/-- The same use of a map. -/
def call (contents : Contents) : Call → Contents × Answer
  | .insert source document => (contents.insert source document, .done)
  | .insertMany source documents => (documents.foldl (·.insert source) contents, .done)
  | .delete source filter =>
    (contents.delete source filter, .removed (contents.removed source filter))
  | .apply writes => (writes.foldl write contents, .done)
  | .drop source => (contents.drop source, .existed (contents source).isSome)
  | .reopen => (contents, .done)

def run (contents : Contents) : List Call → Contents × List Answer
  | [] => (contents, [])
  | call :: rest =>
    let (after, answer) := contents.call call
    let (last, answers) := after.run rest
    (last, answer :: answers)

end Contents

namespace DocumentStore

/-- What can be seen of a store is what is in the map. -/
structure Shows (store : DocumentStore) (contents : Contents) : Prop where
  scan (source : String) : (store.find source .scan).map Cursor.collect =
    .ok (contents.documents source, none)
  count (source : String) : store.count source = .ok (contents.documents source).length
  listed (source : String) : source ∈ store.namespaces ↔ (contents source).isSome
  ascending : store.namespaces.Pairwise fun first second =>
    Bytes.ofString first < Bytes.ofString second

theorem shows_of_represents {store : DocumentStore} {contents : Contents}
    (represents : store.Represents contents) : store.Shows contents := by
  constructor
  · intro source
    obtain ⟨cursor, found, -, scans⟩ := find_scan represents source
    rw [found]
    exact congrArg Except.ok (Cursor.collect_scan scans)
  · exact count_eq represents
  · exact mem_namespaces represents
  · exact (List.pairwise_map.mpr store.registry.ascending).imp Bytes.ofString_lt

theorem call_represents {store : DocumentStore} {contents : Contents}
    (represents : store.Represents contents) {call : Call} (shallow : call.Shallow) :
    ∃ after, store.call call = .ok (after, (contents.call call).2) ∧
      after.Represents (contents.call call).1 := by
  cases call with
  | insert source document =>
    obtain ⟨after, number, inserted, next⟩ := insert_represents represents source shallow
    exact ⟨after, by rw [DocumentStore.call, inserted]; rfl, next⟩
  | insertMany source documents =>
    obtain ⟨after, numbers, inserted, next⟩ := insertMany_represents represents source shallow
    exact ⟨after, by rw [DocumentStore.call, inserted]; rfl, next⟩
  | delete source filter =>
    obtain ⟨after, deleted, next⟩ := delete_represents represents source filter
    exact ⟨after, by rw [DocumentStore.call, deleted]; rfl, next⟩
  | apply writes =>
    obtain ⟨after, applied, next⟩ := apply_represents represents shallow
    exact ⟨after, by rw [DocumentStore.call, applied]; rfl, next⟩
  | drop source =>
    obtain ⟨existed, next⟩ := drop_represents represents source
    exact ⟨_, by rw [DocumentStore.call, existed]; rfl, next⟩
  | reopen => exact ⟨store, rfl, represents⟩

theorem run_represents {store : DocumentStore} {contents : Contents}
    (represents : store.Represents contents) {calls : List Call}
    (shallow : ∀ call ∈ calls, call.Shallow) :
    ∃ after, store.run calls = .ok (after, (contents.run calls).2) ∧
      after.Represents (contents.run calls).1 := by
  induction calls generalizing store contents with
  | nil => exact ⟨store, rfl, represents⟩
  | cons call calls ih =>
    obtain ⟨next, called, represents⟩ :=
      call_represents represents (shallow call List.mem_cons_self)
    obtain ⟨after, ran, represents⟩ :=
      ih represents fun other member => shallow other (List.mem_cons_of_mem _ member)
    refine ⟨after, ?_, represents⟩
    rw [run, called]
    simp only [bind, Except.bind, ran]
    rfl

/-- Every run of a store that began empty is the run of a map. No use fails, every deletion
and every drop tells what the map tells, and in the end the store shows the map; since a
run may end anywhere, it does so after every use. Documents are in the map as they are
going to be read, which is as they were inserted if their numbers are. A deletion leaves
the set of namespaces alone. -/
theorem run_refines_contents {calls : List Call} (shallow : ∀ call ∈ calls, call.Shallow) :
    (∃ after, empty.run calls = .ok (after, (Contents.empty.run calls).2) ∧
      after.Shows (Contents.empty.run calls).1) ∧
    (∀ document : Document, document.tree.Exact → document.reread = document) ∧
    ∀ (contents : Contents) (source : String) (filter : Filter) (other : String),
      (contents.delete source filter other).isSome = (contents other).isSome := by
  refine ⟨?_, ?_, ?_⟩
  · obtain ⟨after, ran, represents⟩ := run_represents empty_represents shallow
    exact ⟨after, ran, shows_of_represents represents⟩
  · intro document same
    exact Document.reread_of_exact same
  · intro contents source filter other
    rw [Contents.delete, Function.update_apply]
    split
    next same => rw [same, Option.isSome_map]
    next => rfl

/-- Of two documents one is deleted; a namespace that was not written to is dropped. -/
theorem run_refines_contents_named :
    ∃ after, empty.run [
        .insert "n" (.insert .empty "name" (.string "first")),
        .insertMany "n" [.insert .empty "name" (.string "second")], .reopen,
        .delete "n" (.equals "name" (.string "first")), .drop "m"] =
      .ok (after, [.done, .done, .done, .removed 1, .existed false]) ∧ after.count "n" = .ok 1 := by
  have shallow : ∀ call ∈ [Call.insert "n" (.insert .empty "name" (.string "first")),
      .insertMany "n" [.insert .empty "name" (.string "second")], .reopen,
      .delete "n" (.equals "name" (.string "first")), .drop "m"], call.Shallow := by
    simp only [List.forall_mem_cons, Call.Shallow, List.not_mem_nil, false_imp_iff,
      implies_true, and_true]
    decide +kernel
  obtain ⟨⟨after, ran, shows⟩, -⟩ := run_refines_contents shallow
  refine ⟨after, ran.trans (congrArg (fun answers => Except.ok (after, answers)) ?_),
    (shows.count "n").trans (congrArg Except.ok ?_)⟩
  · decide +kernel
  · decide +kernel

/-- The document with the single number `1e-29`, which is written with these digits. -/
def unsteady : Document :=
  .insert .empty "x" ⟨.number (.real ⟨false, 4172965893781238599, by decide⟩), .number _⟩

/-- A document as it was inserted is not what a scan returns: the digits are read as the next
number. -/
theorem scan_of_inserted_rounds :
    unsteady.depth ≤ Json.depthLimit ∧
      ∃ after number, empty.insert "n" unsteady = .ok (after, number) ∧
        (after.find "n" .scan).map Cursor.collect ≠ .ok ([unsteady], none) := by
  let number : Json.Number := .real ⟨false, 4172965893781238599, by decide⟩
  have shallow : unsteady.depth ≤ Json.depthLimit := by decide +kernel
  have moved : number.reread ≠ number := by decide +kernel
  obtain ⟨after, count, inserted, represents⟩ := insert_represents empty_represents "n" shallow
  refine ⟨shallow, after, count, inserted, ?_⟩
  rw [(shows_of_represents represents).scan "n"]
  intro same
  have read : [unsteady.reread] = [unsteady] := congrArg Prod.fst (Except.ok.inj same)
  have trees : [Json.Tree.number number.reread] = [Json.Tree.number number] :=
    congrArg (fun document => document.fields.entries.map (·.2.tree)) (List.cons.inj read).1
  exact moved (Json.Tree.number.inj (List.cons.inj trees).1)

end DocumentStore
end MetadataClient
