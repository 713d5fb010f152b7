import MetadataClient.Document
import MetadataClient.Proofs.Json.RoundTrip

/-! Documents that are kept. A document that nests no deeper than readers allow is decoded
from its encoded form, with the same fields. -/
namespace MetadataClient

namespace Json.Tree

theorem rereadItems_eq_map (items : List Tree) : rereadItems items = items.map reread := by
  induction items with
  | nil => rfl
  | cons item items ih => rw [rereadItems, ih, List.map_cons]

theorem rereadMembers_eq_map (members : List (String × Tree)) :
    rereadMembers members = members.map fun member => (member.1, member.2.reread) := by
  induction members with
  | nil => rfl
  | cons member members ih => rw [rereadMembers, ih, List.map_cons]

theorem arrangeItems_eq_map (items : List Tree) : arrangeItems items = items.map arrange := by
  induction items with
  | nil => rfl
  | cons item items ih => rw [arrangeItems, ih, List.map_cons]

theorem arrangeMembers_of_ascending {earlier members : List (String × Tree)}
    (ascending : Entries.Ascending (earlier ++ members))
    (arranged : ∀ member ∈ members, member.2.arrange = member.2) :
    arrangeMembers earlier members = earlier ++ members := by
  induction members generalizing earlier with
  | nil => exact (List.append_nil earlier).symm
  | cons member members ih =>
    have last : ∀ other ∈ earlier, other.1 < member.1 := by
      intro other found
      exact (List.pairwise_append.mp ascending).2.2 other found member List.mem_cons_self
    rw [← List.singleton_append, ← List.append_assoc] at ascending
    rw [arrangeMembers, arranged member List.mem_cons_self, Entries.insert_of_last _ last,
      ih ascending fun other found => arranged other (List.mem_cons_of_mem _ found),
      List.append_assoc, List.singleton_append]

theorem arrange_of_ordered {tree : Tree} (ordered : tree.Ordered) : tree.arrange = tree := by
  induction ordered with
  | null => rfl
  | bool => rfl
  | number => rfl
  | string => rfl
  | array _ ih =>
    rw [arrange, arrangeItems_eq_map, List.map_congr_left ih, List.map_id']
  | object ascending _ ih =>
    rw [arrange, @arrangeMembers_of_ascending [] _ ascending ih, List.nil_append]

theorem reread_ordered {tree : Tree} (ordered : tree.Ordered) : tree.reread.Ordered := by
  induction ordered with
  | null => exact .null
  | bool value => exact .bool value
  | number value => exact .number value.reread
  | string text => exact .string text
  | array _ ih =>
    rw [reread, rereadItems_eq_map]
    exact .array (List.forall_mem_map.mpr ih)
  | object ascending _ ih =>
    rw [reread, rereadMembers_eq_map]
    exact .object (Entries.map_ascending reread ascending) (List.forall_mem_map.mpr ih)

/-- Every number comes back as it was written. Integers always do. -/
inductive Exact : Tree → Prop
  | null : Exact .null
  | bool (value : Bool) : Exact (.bool value)
  | integer (value : Int) (least : -0x8000000000000000 ≤ value)
      (most : value < 0x10000000000000000) : Exact (.number (.integer value least most))
  | real {value : Binary64} : Number.reread (.real value) = .real value →
      Exact (.number (.real value))
  | string (text : String) : Exact (.string text)
  | array {items : List Tree} : (∀ item ∈ items, Exact item) → Exact (.array items)
  | object {members : List (String × Tree)} : (∀ member ∈ members, Exact member.2) →
      Exact (.object members)

theorem reread_of_exact {tree : Tree} (exact : tree.Exact) : tree.reread = tree := by
  induction exact with
  | null => rfl
  | bool => rfl
  | integer value least most => rw [reread, Number.reread_integer]
  | real same => rw [reread, same]
  | string => rfl
  | array _ ih =>
    rw [reread, rereadItems_eq_map, List.map_congr_left ih, List.map_id']
  | @object members _ ih =>
    have same : ∀ member ∈ members, (member.1, member.2.reread) = member := by
      intro member found
      rw [ih member found]
    rw [reread, rereadMembers_eq_map, List.map_congr_left same, List.map_id']

end Json.Tree

namespace Json.Value

def reread (value : Value) : Value :=
  ⟨value.tree.reread, Tree.reread_ordered value.ordered⟩

theorem ofTree_tree (value : Value) : ofTree value.tree = value := by
  obtain ⟨tree, ordered⟩ := value
  simp only [ofTree, Tree.arrange_of_ordered ordered]

end Json.Value

namespace Document

def reread (document : Document) : Document :=
  ⟨document.fields.entries.map fun field => (field.1, field.2.reread),
    Entries.map_ascending _ document.fields.ascending⟩

theorem tree_reread (document : Document) : document.tree.reread = document.reread.tree := by
  simp only [tree, Json.Tree.reread, Json.Tree.rereadMembers_eq_map, reread, List.map_map]
  rfl

theorem ofMembers_fields (document : Document) :
    ofMembers (document.fields.entries.map fun field => (field.1, field.2.tree)) = document := by
  have same : (fun field : String × Json.Value => (field.1, Json.Value.ofTree field.2.tree)) =
      id := by
    funext field
    rw [Json.Value.ofTree_tree, id]
  rw [ofMembers, List.map_map]
  change mk (.ofList (document.fields.entries.map fun field =>
    (field.1, Json.Value.ofTree field.2.tree))) = document
  rw [same, List.map_id, SortedMap.ofList_entries]

theorem encode_begins (document : Document) :
    ∃ after, document.encode = Json.openObject :: after :=
  ⟨_, by rw [encode, tree, Json.Tree.print]; rfl⟩

theorem decode_encode {document : Document} (shallow : document.depth ≤ Json.depthLimit) :
    decode document.encode = .ok document.reread := by
  have read : Json.parse document.encode = .ok document.reread.tree :=
    (Json.parse_print shallow).trans (congrArg Except.ok document.tree_reread)
  obtain ⟨after, begins⟩ := document.encode_begins
  have members : Json.parseObject document.encode =
      .ok (document.reread.fields.entries.map fun field => (field.1, field.2.tree)) := by
    rw [Json.parseObject, read, begins, Json.skipBlanks_cons rfl]
    rfl
  rw [decode, members]
  exact congrArg Except.ok document.reread.ofMembers_fields

theorem tree_injective : Function.Injective tree := by
  intro first second same
  calc first
      = ofMembers (first.fields.entries.map fun field => (field.1, field.2.tree)) :=
        first.ofMembers_fields.symm
    _ = ofMembers (second.fields.entries.map fun field => (field.1, field.2.tree)) :=
        congrArg ofMembers (Json.Tree.object.inj same)
    _ = second := second.ofMembers_fields

/-- A document whose numbers come back as they were written comes back as a whole. -/
theorem reread_of_exact {document : Document} (exact : document.tree.Exact) :
    document.reread = document := by
  apply tree_injective
  rw [← tree_reread, Json.Tree.reread_of_exact exact]

end Document
end MetadataClient
