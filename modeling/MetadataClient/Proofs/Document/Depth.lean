import MetadataClient.Proofs.Json.Depth
import MetadataClient.Proofs.Json.Uniqueness

/-! How deep a document may nest. Every document has an encoded form, and no other document has the
same one, but only a document that nests no deeper than readers allow is decoded from it. -/
namespace MetadataClient.Document

theorem decode_encode_deep {document : Document} (deep : Json.depthLimit < document.depth) :
    decode document.encode = .error .malformed := by
  have refused : Json.parse document.encode = .error .malformed := Json.parse_print_deep deep
  obtain ⟨after, begins⟩ := document.encode_begins
  rw [decode, Json.parseObject, refused, begins, Json.skipBlanks_cons rfl]
  rfl

/-- What comes of decoding a document that was encoded. -/
def readBack (document : Document) : Except Json.Fault Document :=
  if document.depth ≤ Json.depthLimit then .ok document.reread else .error .malformed

theorem readBack_shallow {document : Document} (shallow : document.depth ≤ Json.depthLimit) :
    document.readBack = .ok document.reread :=
  if_pos shallow

theorem decode_encode_eq_readBack (document : Document) :
    decode document.encode = document.readBack := by
  rw [readBack]
  split
  next shallow => exact decode_encode shallow
  next deep => exact decode_encode_deep (Nat.lt_of_not_le deep)

/-- A document without binary64 numbers, or with such as are read as they were written, is decoded
from its encoded form if it nests at most 127 levels, and refused otherwise. It shares this
form with no other such document, even if both nest too deep to be decoded. -/
theorem decode_encode_exact {document : Document} (exact : document.tree.Exact) :
    decode document.encode =
      (if document.depth ≤ 127 then .ok document else .error .malformed) ∧
    ∀ other : Document, other.tree.Exact → document.encode = other.encode → document = other := by
  constructor
  · have decoded := document.decode_encode_eq_readBack
    rwa [readBack, reread_of_exact exact] at decoded
  · intro other known same
    exact tree_injective (Json.Tree.print_injective exact known same)

/-- The empty text inside so many arrays. -/
def boxedTree : Nat → Json.Tree
  | 0 => .string ""
  | levels + 1 => .array [boxedTree levels]

theorem depth_boxedTree (levels : Nat) : (boxedTree levels).depth = levels := by
  induction levels with
  | zero => rfl
  | succ levels ih =>
    rw [boxedTree, Json.Tree.depth, Json.Tree.itemsDepth, Json.Tree.itemsDepth, ih, Nat.max_zero]

theorem boxedTree_ordered (levels : Nat) : (boxedTree levels).Ordered := by
  induction levels with
  | zero => exact .string ""
  | succ levels ih => exact .array (List.forall_mem_singleton.mpr ih)

theorem boxedTree_exact (levels : Nat) : (boxedTree levels).Exact := by
  induction levels with
  | zero => exact .string ""
  | succ levels ih => exact .array (List.forall_mem_singleton.mpr ih)

/-- A document with a single field, whose value is inside so many arrays. -/
def boxed (levels : Nat) : Document :=
  .insert .empty "\"\\" ⟨boxedTree levels, boxedTree_ordered levels⟩

theorem depth_boxed (levels : Nat) : (boxed levels).depth = levels + 1 := by
  have single : (boxed levels).tree = .object [("\"\\", boxedTree levels)] := rfl
  rw [depth, single, Json.Tree.depth, Json.Tree.membersDepth, Json.Tree.membersDepth,
    depth_boxedTree, Nat.max_zero]

theorem boxed_exact (levels : Nat) : (boxed levels).tree.Exact :=
  .object (List.forall_mem_singleton.mpr (boxedTree_exact levels))

/-- The document is the first level and the arrays are the others. -/
theorem decode_encode_exact_boxed :
    decode (boxed 126).encode = .ok (boxed 126) ∧
      decode (boxed 127).encode = .error .malformed := by
  have last := (decode_encode_exact (boxed_exact 126)).1
  have beyond := (decode_encode_exact (boxed_exact 127)).1
  rw [depth_boxed] at last beyond
  exact ⟨last, beyond⟩

end MetadataClient.Document
