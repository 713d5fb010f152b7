import MetadataClient.Proofs.Document.Depth
import MetadataClient.Proofs.Json.Arrangement

/-! Encoded documents are canonical. A document that is put together field by field shows nothing
of the order and of the fields that were replaced, at any depth. From a text that is decoded only
the document is kept, so the texts that are decoded to it have one encoded form in common. -/
namespace MetadataClient

namespace Entries

theorem map_insert {α β : Type} (change : α → β) (key : String) (value : α)
    (entries : List (String × α)) :
    (insert key value entries).map (fun entry => (entry.1, change entry.2)) =
      insert key (change value) (entries.map fun entry => (entry.1, change entry.2)) := by
  induction entries with
  | nil => rfl
  | cons entry entries ih =>
    rw [insert, List.map_cons, insert]
    split_ifs
    · rfl
    · rfl
    · rw [List.map_cons, ih]

end Entries

theorem Json.parse_of_parseObject {bytes : Bytes} {members : List (String × Json.Tree)}
    (read : Json.parseObject bytes = .ok members) : Json.parse bytes = .ok (.object members) := by
  rw [Json.parseObject] at read
  split at read
  next => cases read
  next byte after begins =>
    split_ifs at read
    cases found : Json.parse bytes with
    | error fault =>
      rw [found] at read
      cases read
    | ok tree =>
      cases tree <;> rw [found] at read <;> cases read
      rfl

namespace Document

/-- The document that comes of inserting these fields one after the other, in place or in a chain
of calls. Objects in their values come of their own members in the same way. -/
def assembled (fields : List (String × Json.Tree)) : Document :=
  fields.foldl (fun document field => document.insert field.1 (.ofTree field.2)) .empty

theorem assembled_eq_ofMembers (fields : List (String × Json.Tree)) :
    assembled fields = ofMembers fields := by
  have from' (earlier : NameMap Json.Value) :
      fields.foldl (fun document field => Document.insert document field.1 (.ofTree field.2))
        ⟨earlier⟩ =
      ⟨(fields.map fun field => (field.1, Json.Value.ofTree field.2)).foldl
        (fun map entry => map.insert entry.1 entry.2) earlier⟩ := by
    induction fields generalizing earlier with
    | nil => rfl
    | cons field fields ih => exact ih _
  exact from' .empty

theorem get?_foldl_insert (fields : List (String × Json.Tree)) (earlier : Document)
    (name : String) :
    (fields.foldl (fun document field => document.insert field.1 (.ofTree field.2)) earlier).get?
        name =
      ((Json.Tree.last? name fields).map Json.Value.ofTree).or (earlier.get? name) := by
  induction fields generalizing earlier with
  | nil => rfl
  | cons field fields ih =>
    rw [List.foldl_cons, ih, get?_insert, Json.Tree.last?_cons]
    cases Json.Tree.last? name fields with
    | some value => rfl
    | none => split <;> rfl

theorem get?_assembled (fields : List (String × Json.Tree)) (name : String) :
    (assembled fields).get? name = (Json.Tree.last? name fields).map Json.Value.ofTree := by
  rw [assembled, get?_foldl_insert]
  exact Option.or_none

theorem tree_ofMembers (members : List (String × Json.Tree)) :
    (ofMembers members).tree = (Json.Tree.object members).arrange := by
  have from' (earlier : NameMap Json.Value) :
      ((members.map fun member => (member.1, Json.Value.ofTree member.2)).foldl
        (fun map entry => map.insert entry.1 entry.2) earlier).entries.map
          (fun entry => (entry.1, entry.2.tree)) =
      Json.Tree.arrangeMembers (earlier.entries.map fun entry => (entry.1, entry.2.tree))
        members := by
    induction members generalizing earlier with
    | nil => rfl
    | cons member members ih =>
      rw [List.map_cons, List.foldl_cons, ih, Json.Tree.arrangeMembers]
      congr 1
      exact Entries.map_insert Json.Value.tree member.1 (.ofTree member.2) earlier.entries
  rw [Json.Tree.arrange]
  exact congrArg Json.Tree.object (from' .empty)

theorem depth_decode_le {bytes : Bytes} {document : Document}
    (decoded : decode bytes = .ok document) : document.depth ≤ Json.depthLimit := by
  rw [decode] at decoded
  cases read : Json.parseObject bytes with
  | error fault =>
    rw [read] at decoded
    cases decoded
  | ok members =>
    rw [read] at decoded
    cases decoded
    have shallow := Json.depth_parse_le (Json.parse_of_parseObject read)
    rw [depth, tree_ofMembers]
    exact Nat.le_trans (Json.Tree.depth_arrange_le _) shallow

theorem tree_ordered (document : Document) : document.tree.Ordered := by
  have whole := tree_ofMembers (document.fields.entries.map fun field => (field.1, field.2.tree))
  rw [ofMembers_fields] at whole
  rw [whole]
  exact Json.Tree.arrange_ordered _

theorem assembled_eq_of_alike {fields others : List (String × Json.Tree)}
    (alike : Json.Tree.Alike (.object fields) (.object others)) :
    assembled fields = assembled others := by
  apply tree_injective
  rw [assembled_eq_ofMembers, assembled_eq_ofMembers, tree_ofMembers, tree_ofMembers,
    Json.Tree.arrange_eq_of_alike alike]

/-- The bytes are decoded to a document whose numbers come back as they were written. All
integers do. -/
structure Decodes (bytes : Bytes) (document : Document) : Prop where
  decoded : decode bytes = .ok document
  exact : document.tree.Exact

/-- Members are decoded as they stand, in any order and repeated or not. -/
theorem decodes_print {members : List (String × Json.Tree)}
    (exact : (Json.Tree.object members).Exact)
    (shallow : (Json.Tree.object members).depth ≤ Json.depthLimit) :
    Decodes (Json.Tree.object members).print (ofMembers members) := by
  have read := Json.parse_print shallow
  rw [Json.Tree.reread_of_exact exact] at read
  obtain ⟨after, begins⟩ : ∃ after, (Json.Tree.object members).print = Json.openObject :: after :=
    ⟨_, by rw [Json.Tree.print]; rfl⟩
  constructor
  · rw [decode, Json.parseObject, read, begins, Json.skipBlanks_cons rfl]
    rfl
  · rw [tree_ofMembers]
    exact Json.Tree.arrange_exact exact

theorem Decodes.encoded {bytes : Bytes} {document : Document} (decodes : Decodes bytes document) :
    decode document.encode = .ok document := by
  rw [decode_encode (depth_decode_le decodes.decoded), reread_of_exact decodes.exact]

/-- An assembled document holds the last value of every name, as an object that lists the fields
is read. Documents that are assembled alike have the same bytes, in which the names of every object
ascend. Whatever is decoded is encoded to bytes that are decoded to the same and encoded to
themselves, and to the same bytes exactly if it is the same. -/
theorem encode_canonical :
    (∀ fields, assembled fields = ofMembers fields ∧
      ∀ name, (assembled fields).get? name =
        (Json.Tree.last? name fields).map Json.Value.ofTree) ∧
    (∀ fields others, Json.Tree.Alike (.object fields) (.object others) →
      (assembled fields).encode = (assembled others).encode) ∧
    (∀ document : Document, document.encode = document.tree.print ∧ document.tree.Ascends) ∧
    (∀ bytes document, Decodes bytes document → decode document.encode = .ok document ∧
      (decode document.encode).map encode = .ok document.encode) ∧
    ∀ bytes others document other, Decodes bytes document → Decodes others other →
      (document = other ↔ document.encode = other.encode) := by
  refine ⟨?_, ?_, ?_, ?_, ?_⟩
  · intro fields
    exact ⟨assembled_eq_ofMembers fields, get?_assembled fields⟩
  · intro fields others alike
    rw [assembled_eq_of_alike alike]
  · intro document
    exact ⟨rfl, Json.Tree.ascends_of_ordered document.tree_ordered⟩
  · intro bytes document decodes
    rw [decodes.encoded]
    exact ⟨rfl, rfl⟩
  · intro bytes others document other decodes decodes'
    refine ⟨congrArg encode, ?_⟩
    intro same
    have decoded := decodes.encoded
    rw [same, decodes'.encoded] at decoded
    exact (Except.ok.inj decoded).symm

/-- Fields that are assembled alike, one of them repeated and one with a repeated member. -/
theorem encode_canonical_repeated :
    let fields : List (String × Json.Tree) := [("b", .null),
      ("a", .object [("y", .null), ("x", .bool false), ("x", .bool true)]), ("b", .string "last")]
    let others : List (String × Json.Tree) :=
      [("a", .object [("x", .bool true), ("y", .null)]), ("b", .string "last")]
    (assembled fields).get? "b" = some (.string "last") ∧
      (assembled fields).encode = (assembled others).encode ∧
      decode (Json.Tree.object fields).print = .ok (ofMembers fields) ∧
      decode (ofMembers fields).encode = .ok (ofMembers fields) ∧
      (ofMembers fields = ofMembers others ↔
        (ofMembers fields).encode = (ofMembers others).encode) := by
  intro fields others
  have inner : Json.Tree.Alike (.object [("y", .null), ("x", .bool false), ("x", .bool true)])
      (.object [("x", .bool true), ("y", .null)]) := by
    refine .object ?_ ?_ <;> intro name <;>
      simp only [Json.Tree.last?_cons, Json.Tree.last?_nil] <;> split_ifs
    all_goals grind [Json.Tree.Alike]
  have alike : Json.Tree.Alike (.object fields) (.object others) := by
    refine .object ?_ ?_ <;> intro name <;>
      simp only [fields, others, Json.Tree.last?_cons, Json.Tree.last?_nil] <;> split_ifs
    all_goals grind [Json.Tree.Alike]
  have known : (Json.Tree.object fields).Exact := by
    refine .object (List.forall_mem_cons.mpr ⟨.null, List.forall_mem_cons.mpr ⟨.object ?_, ?_⟩⟩)
    · exact List.forall_mem_cons.mpr ⟨.null, List.forall_mem_cons.mpr
        ⟨.bool false, List.forall_mem_singleton.mpr (.bool true)⟩⟩
    · exact List.forall_mem_singleton.mpr (.string "last")
  have known' : (Json.Tree.object others).Exact := by
    refine .object (List.forall_mem_cons.mpr ⟨.object ?_, ?_⟩)
    · exact List.forall_mem_cons.mpr ⟨.bool true, List.forall_mem_singleton.mpr .null⟩
    · exact List.forall_mem_singleton.mpr (.string "last")
  have decodes := decodes_print known (by decide)
  have decodes' := decodes_print known' (by decide)
  obtain ⟨holds, assemble, -, again, apart⟩ := encode_canonical
  exact ⟨(holds fields).2 "b", assemble fields others alike, decodes.decoded,
    (again _ _ decodes).1, apart _ _ _ _ decodes decodes'⟩

end Document
end MetadataClient
