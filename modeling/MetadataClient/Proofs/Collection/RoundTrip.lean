import MetadataClient.Proofs.Collection.Recognition
import MetadataClient.Proofs.Document.RoundTrip

/-! Collections that are listed and found again. Of a document that lists a collection nothing but
the identifier, the name and the store is kept, and the identifier in its one written form. -/
namespace MetadataClient

namespace Collection

variable {collection : Collection} {store : Store}

/-! ## The document of a collection -/

theorem document_id (collection : Collection) :
    collection.document.HasText "_id" collection.id.text := by
  have name : nameField ≠ "_id" := by decide
  have store : storeField ≠ "_id" := by decide
  rw [Document.HasText, document, Document.get?_insert, if_neg store, Document.get?_insert,
    if_neg name, Document.get?_insert]
  exact if_pos rfl

theorem document_name (collection : Collection) :
    collection.document.HasText "name" collection.name := by
  have store : storeField ≠ "name" := by decide
  rw [Document.HasText, document, Document.get?_insert, if_neg store, Document.get?_insert]
  exact if_pos rfl

theorem document_store (collection : Collection) :
    collection.document.HasText "store" collection.store.name := by
  rw [Document.HasText, document, Document.get?_insert]
  exact if_pos rfl

theorem tree_document (collection : Collection) : collection.document.tree =
    .object [("_id", .string collection.id.text), ("name", .string collection.name),
      ("store", .string collection.store.name)] := by
  have name : ¬"name" < "_id" := by decide
  have store : ¬"store" < "_id" := by decide
  have last : ¬"store" < "name" := by decide
  simp [Document.tree, document, Document.insert, Document.empty, SortedMap.insert,
    SortedMap.empty, Entries.insert, Document.idField, nameField, storeField, Json.Value.string,
    name, store, last]

theorem depth_document (collection : Collection) : collection.document.depth = 1 := by
  rw [Document.depth, tree_document]
  rfl

theorem document_exact (collection : Collection) : collection.document.tree.Exact := by
  rw [tree_document]
  apply Json.Tree.Exact.object
  intro member found
  simp only [List.mem_cons, List.not_mem_nil, or_false] at found
  rcases found with rfl | rfl | rfl <;> exact .string _

theorem decode_document (collection : Collection) :
    Document.decode collection.document.encode = .ok collection.document := by
  have shallow : collection.document.depth ≤ Json.depthLimit := by
    rw [depth_document]
    decide
  rw [Document.decode_encode shallow, Document.reread_of_exact collection.document_exact]

theorem document_lists (same : collection.store.name = store.name) :
    collection.document.Lists store { collection with store } where
  id := ⟨collection.id.text, collection.document_id, collection.id.written_text⟩
  name := collection.document_name
  owner := by
    intro owner found
    rw [found.unique collection.document_store, same]
  store := rfl

theorem document_defect (other : collection.store.name ≠ store.name) :
    collection.document.Defect store
      ("collection '" ++ collection.name ++ "' belongs to store '" ++ collection.store.name ++
        "'") :=
  .foreign collection.document_id collection.id.written_text collection.document_name
    collection.document_store other

theorem ofDocument_document (collection : Collection) :
    ofDocument collection.store collection.document = .ok collection :=
  ofDocument_of_lists (document_lists rfl)

/-! ## Listing again -/

def relisted (store : Store) (document : Document) : Except Error Document :=
  (ofDocument store document).map Collection.document

theorem ofDocument_store {document : Document}
    (found : ofDocument store document = .ok collection) : collection.store = store :=
  (ofDocument_eq_ok_iff.mp found).store

/-- A collection is found in its own document, also after the document was encoded and decoded,
and only in a store of this name. Whatever else lists the collection, its own document lists the
same, and listing again changes it no further. -/
theorem document_round_trip :
    (∀ collection : Collection,
      ofDocument collection.store collection.document = .ok collection ∧
      (Document.decode collection.document.encode).map (ofDocument collection.store) =
        .ok (.ok collection) ∧
      ∀ store : Store, store.name ≠ collection.store.name →
        ofDocument store collection.document =
          .error (.malformedDocument (store.name ++ ".collections")
            ("collection '" ++ collection.name ++ "' belongs to store '" ++
              collection.store.name ++ "'"))) ∧
    ∀ (store : Store) (document : Document) (collection : Collection),
      ofDocument store document = .ok collection →
        ofDocument store collection.document = .ok collection ∧
        relisted store document = .ok collection.document ∧
        (relisted store document).bind (relisted store) = relisted store document := by
  constructor
  · intro collection
    have found := collection.ofDocument_document
    refine ⟨found, ?_, ?_⟩
    · rw [decode_document, Except.map, found]
    · intro store other
      exact ofDocument_of_defect (document_defect other.symm)
  · intro store document collection found
    obtain rfl := ofDocument_store found
    have again := collection.ofDocument_document
    have once : relisted collection.store document = .ok collection.document := by
      rw [relisted, found, Except.map]
    refine ⟨again, once, ?_⟩
    rw [once, Except.bind, relisted, again, Except.map]

/-- The identifier is in another notation and in upper case, there is no store, and there is a
field that collections do not have. -/
theorem document_round_trip_urn :
    let store := Store.standard "s"
    let collection : Collection := ⟨⟨0x67e5504410b1426f9247bb680e5fe0c8⟩, "a\"\n", store⟩
    let document := ((Document.empty.insert "_id"
      (.string "URN:UUID:67E55044-10B1-426F-9247-BB680E5FE0C8")).insert "name"
        (.string "a\"\n")).insert "zone" (.string "b")
    ofDocument store document = .ok collection ∧ document.encode ≠ collection.document.encode ∧
      (relisted store document).bind (relisted store) = .ok collection.document := by
  intro store collection document
  have found : ofDocument store document = .ok collection := by decide +kernel
  obtain ⟨-, once, twice⟩ := document_round_trip.2 store document collection found
  refine ⟨found, by decide +kernel, ?_⟩
  rw [twice, once]

end Collection
end MetadataClient
