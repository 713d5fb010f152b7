import MetadataClient.Collection
import MetadataClient.Proofs.Queue.Writing

/-! Stores as plain lists. A catalog says which documents are listed in every store. What a
client does changes the catalog as it changes the namespaces that list the stores. -/
namespace MetadataClient

/-- The documents that are listed in the store of every name. -/
abbrev Catalog := String → List Document

namespace Catalog

def empty : Catalog := fun _ => []

/-- A creation lists its document behind the others. A deletion takes out all documents
that have the name. -/
def operate (catalog : Catalog) : Operation → Catalog
  | .create store document =>
    Function.update catalog store (catalog store ++ [document])
  | .delete store name =>
    Function.update catalog store ((catalog store).filter fun document =>
      document.getString? Collection.nameField != some name)

def after (catalog : Catalog) (operations : List Operation) : Catalog :=
  operations.foldl operate catalog

end Catalog

namespace Document

theorem get?_reread (document : Document) (name : String) :
    document.reread.get? name = (document.get? name).map Json.Value.reread := by
  simp only [get?, SortedMap.find?, reread, Entries.find?, List.find?_map, Option.map_map]
  rfl

theorem getString?_reread (document : Document) (name : String) :
    document.reread.getString? name = document.getString? name := by
  rw [getString?, getString?, get?_reread]
  cases document.get? name with
  | none => rfl
  | some value =>
    obtain ⟨tree, ordered⟩ := value
    cases tree <;> rfl

theorem accepts_equals_string (document : Document) (name text : String) :
    (Filter.equals name (.string text)).accepts document =
      (document.getString? name == some text) := by
  have only : (Filter.equals name (.string text)).fields.entries = [(name, .string text)] := rfl
  rw [Filter.accepts, only, List.all_cons, List.all_nil, Bool.and_true, getString?]
  dsimp only
  cases document.get? name with
  | none => rfl
  | some value =>
    obtain ⟨tree, ordered⟩ := value
    cases tree with
    | string found => rfl
    | _ => rfl

end Document

theorem Collection.ofDocument_reread (store : Store) (document : Document) :
    ofDocument store document.reread = ofDocument store document := by
  simp only [ofDocument, Document.getString?_reread]

theorem Store.listing_injective : Function.Injective Store.listing := by
  intro first second same
  exact (String.append_left_inj ".collections").mp same

namespace Contents

/-- The namespaces that list stores hold what the catalog says. -/
def Lists (contents : Contents) (catalog : Catalog) : Prop :=
  ∀ store, contents.documents (Store.listing store) = (catalog store).map Document.reread

theorem empty_lists : empty.Lists .empty := by
  intro store
  rfl

theorem documents_update (contents : Contents) (source other : String)
    (kept : Option (List Document)) :
    documents (Function.update contents source kept) other =
      if other = source then kept.getD [] else contents.documents other := by
  rw [documents, Function.update_apply]
  split <;> rfl

theorem write_lists {contents : Contents} {catalog : Catalog} (lists : contents.Lists catalog)
    (operation : Operation) :
    (contents.write operation.write).Lists (catalog.operate operation) := by
  intro other
  cases operation with
  | create store document =>
    simp only [Operation.write, write, insert, Catalog.operate, documents_update,
      Function.update_apply, Store.listing_injective.eq_iff]
    split
    · rw [Option.getD_some, lists, List.map_append]
      rfl
    · exact lists other
  | delete store name =>
    simp only [Operation.write, write, delete, Catalog.operate, documents_update,
      Function.update_apply, Store.listing_injective.eq_iff]
    split
    · have kept : ((contents (Store.listing store)).map (·.filter fun document =>
          !(Filter.equals Collection.nameField (.string name)).accepts document)).getD [] =
          (contents.documents (Store.listing store)).filter fun document =>
            !(Filter.equals Collection.nameField (.string name)).accepts document := by
        rw [documents]
        cases contents (Store.listing store) <;> rfl
      rw [kept, lists, List.filter_map]
      congr 1
      apply List.filter_congr
      intro document member
      rw [Function.comp_apply, Document.accepts_equals_string, Document.getString?_reread]
      rfl
    · exact lists other

theorem operate_lists {contents : Contents} {catalog : Catalog} (lists : contents.Lists catalog)
    (operations : List Operation) :
    (contents.operate operations).Lists (catalog.after operations) := by
  induction operations generalizing contents catalog with
  | nil => exact lists
  | cons operation rest ih => exact ih (write_lists lists operation)

end Contents
end MetadataClient
