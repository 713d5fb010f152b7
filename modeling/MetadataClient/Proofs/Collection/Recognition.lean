import MetadataClient.Collection
import MetadataClient.Proofs.Uuid.Reading

/-! Which documents list a collection. A document that lists none is reported by what is wrong
with it first: its identifier, its name or its store. -/
namespace MetadataClient

namespace Document

variable {document : Document}

def HasText (document : Document) (name text : String) : Prop :=
  document.get? name = some (.string text)

theorem getString?_eq_some_iff {name text : String} :
    document.getString? name = some text ↔ document.HasText name text := by
  rw [getString?, Option.bind_eq_some_iff, HasText]
  constructor
  · rintro ⟨⟨tree, ordered⟩, found, is⟩
    cases tree with
    | string other =>
      cases is
      exact found
    | _ => cases is
  · intro found
    exact ⟨.string text, found, rfl⟩

theorem getString?_eq_none_iff {name : String} :
    document.getString? name = none ↔ ∀ text, ¬document.HasText name text := by
  rw [Option.eq_none_iff_forall_ne_some]
  exact forall_congr' fun text => not_congr getString?_eq_some_iff

theorem HasText.unique {name first second : String} (one : document.HasText name first)
    (other : document.HasText name second) : first = second :=
  Option.some.inj ((getString?_eq_some_iff.mpr one).symm.trans (getString?_eq_some_iff.mpr other))

/-- The document lists the collection in the store. Nothing else in it matters. -/
structure Lists (document : Document) (store : Store) (collection : Collection) : Prop where
  id : ∃ text, document.HasText "_id" text ∧ collection.id.Written text.toList
  name : document.HasText "name" collection.name
  owner : ∀ owner, document.HasText "store" owner → owner = store.name
  store : collection.store = store

/-- Why the document lists no collection in the store. What comes first is told, whatever
follows. -/
inductive Defect (document : Document) (store : Store) : String → Prop
  | missingId : (∀ text, ¬document.HasText "_id" text) → Defect document store "missing _id"
  | invalidId {id : String} {fault : Uuid.Fault} : document.HasText "_id" id →
      (∀ uuid : Uuid, ¬uuid.Written id.toList) → Uuid.parse id = .error fault →
      Defect document store ("invalid _id '" ++ id ++ "': " ++ fault.message)
  | missingName {id : String} {uuid : Uuid} : document.HasText "_id" id →
      uuid.Written id.toList → (∀ name, ¬document.HasText "name" name) →
      Defect document store "missing name"
  | foreign {id name owner : String} {uuid : Uuid} : document.HasText "_id" id →
      uuid.Written id.toList → document.HasText "name" name → document.HasText "store" owner →
      owner ≠ store.name →
      Defect document store ("collection '" ++ name ++ "' belongs to store '" ++ owner ++ "'")

variable {store : Store} {collection : Collection} {reason : String}

theorem lists_or_defect (document : Document) (store : Store) :
    (∃ collection, document.Lists store collection) ∨ ∃ reason, document.Defect store reason := by
  cases identified : document.getString? "_id" with
  | none => exact .inr ⟨_, .missingId (getString?_eq_none_iff.mp identified)⟩
  | some id =>
    have id' := getString?_eq_some_iff.mp identified
    cases parsed : Uuid.parse id with
    | error fault =>
      refine .inr ⟨_, .invalidId id' ?_ parsed⟩
      intro uuid written
      cases parsed.symm.trans (Uuid.parse_eq_ok_iff.mpr written)
    | ok uuid =>
      have written := Uuid.parse_eq_ok_iff.mp parsed
      cases named : document.getString? "name" with
      | none => exact .inr ⟨_, .missingName id' written (getString?_eq_none_iff.mp named)⟩
      | some name =>
        have name' := getString?_eq_some_iff.mp named
        by_cases owned : ∀ owner, document.HasText "store" owner → owner = store.name
        · exact .inl ⟨⟨uuid, name, store⟩, ⟨id, id', written⟩, name', owned, rfl⟩
        · obtain ⟨owner, unlike⟩ := Classical.not_forall.mp owned
          obtain ⟨found, other⟩ := Classical.not_imp.mp unlike
          exact .inr ⟨_, .foreign id' written name' found other⟩

end Document

namespace Collection

variable {document : Document} {store : Store} {collection : Collection} {reason : String}

theorem ofDocument_of_lists (lists : document.Lists store collection) :
    ofDocument store document = .ok collection := by
  obtain ⟨⟨id, identified, written⟩, named, owned, rfl⟩ := lists
  have identified := Document.getString?_eq_some_iff.mpr identified
  have named := Document.getString?_eq_some_iff.mpr named
  simp only [ofDocument, Document.idField, nameField, storeField, identified, named,
    Uuid.parse_eq_ok_iff.mpr written]
  cases found : document.getString? "store" with
  | none => rfl
  | some owner =>
    have same := owned owner (Document.getString?_eq_some_iff.mp found)
    simp only [if_pos same]

theorem ofDocument_of_defect (defect : document.Defect store reason) :
    ofDocument store document = .error (.malformedDocument (Store.listing store.name) reason) := by
  cases defect with
  | missingId absent =>
    simp only [ofDocument, Document.idField, Document.getString?_eq_none_iff.mpr absent]
  | invalidId identified unwritten parsed =>
    simp only [ofDocument, Document.idField, Document.getString?_eq_some_iff.mpr identified, parsed]
  | missingName identified written absent =>
    simp only [ofDocument, Document.idField, nameField,
      Document.getString?_eq_some_iff.mpr identified, Uuid.parse_eq_ok_iff.mpr written,
      Document.getString?_eq_none_iff.mpr absent]
  | foreign identified written named owned other =>
    simp only [ofDocument, Document.idField, nameField, storeField,
      Document.getString?_eq_some_iff.mpr identified, Uuid.parse_eq_ok_iff.mpr written,
      Document.getString?_eq_some_iff.mpr named, Document.getString?_eq_some_iff.mpr owned,
      if_neg other]

theorem ofDocument_eq_ok_iff :
    ofDocument store document = .ok collection ↔ document.Lists store collection := by
  constructor
  · intro recognized
    rcases document.lists_or_defect store with ⟨other, lists⟩ | ⟨reason, defect⟩
    · cases (ofDocument_of_lists lists).symm.trans recognized
      exact lists
    · cases (ofDocument_of_defect defect).symm.trans recognized
  · exact ofDocument_of_lists

theorem ofDocument_eq_error_iff {error : Error} : ofDocument store document = .error error ↔
    ∃ reason, document.Defect store reason ∧
      error = .malformedDocument (store.name ++ ".collections") reason := by
  constructor
  · intro refused
    rcases document.lists_or_defect store with ⟨other, lists⟩ | ⟨reason, defect⟩
    · cases (ofDocument_of_lists lists).symm.trans refused
    · cases (ofDocument_of_defect defect).symm.trans refused
      exact ⟨reason, defect, rfl⟩
  · rintro ⟨reason, defect, rfl⟩
    exact ofDocument_of_defect defect

/-- A document is recognized as a collection if it lists this collection, and reported as
malformed by its first defect otherwise. -/
theorem ofDocument_exact (store : Store) (document : Document) :
    (∀ collection, ofDocument store document = .ok collection ↔
      document.Lists store collection) ∧
      ∀ error, ofDocument store document = .error error ↔
        ∃ reason, document.Defect store reason ∧
          error = .malformedDocument (store.name ++ ".collections") reason :=
  ⟨fun _ => ofDocument_eq_ok_iff, fun _ => ofDocument_eq_error_iff⟩

end Collection
end MetadataClient
