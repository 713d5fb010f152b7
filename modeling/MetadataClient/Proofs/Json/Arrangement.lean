import MetadataClient.Proofs.Document.RoundTrip
import MetadataClient.Proofs.Json.Depth
import MetadataClient.Proofs.Text.ByteOrder

/-! Arranged trees. Members that are put into an object one after the other leave the last value
of every name, at every depth, and nothing else of them is left: neither their order nor the
values that were replaced. -/
namespace MetadataClient.Json.Tree

/-- The value of the last member of this name. -/
def last? (name : String) (members : List (String × Tree)) : Option Tree :=
  Entries.find? name members.reverse

theorem last?_nil (name : String) : last? name [] = none := rfl

theorem last?_cons (name : String) (member : String × Tree) (members : List (String × Tree)) :
    last? name (member :: members) =
      (last? name members).or (if member.1 = name then some member.2 else none) := by
  rw [last?, List.reverse_cons, last?]
  induction members.reverse with
  | nil => rw [List.nil_append, Entries.find?_cons, Entries.find?_nil, Option.none_or]
  | cons other others ih =>
    rw [List.cons_append, Entries.find?_cons, Entries.find?_cons, ih]
    split <;> rfl

theorem find?_arrangeMembers (name : String) (earlier members : List (String × Tree)) :
    Entries.find? name (arrangeMembers earlier members) =
      ((last? name members).map arrange).or (Entries.find? name earlier) := by
  induction members generalizing earlier with
  | nil => rfl
  | cons member members ih =>
    rw [arrangeMembers, ih, Entries.find?_insert, last?_cons]
    cases last? name members with
    | some value => rfl
    | none => split <;> rfl

theorem arrangeMembers_ascending (members : List (String × Tree)) :
    Entries.Ascending (arrangeMembers [] members) := by
  cases arrange_ordered (.object members) with
  | object ascending => exact ascending

/-- The trees differ at most in the order of members, and in members that are not the last of
their name. -/
inductive Alike : Tree → Tree → Prop
  | null : Alike .null .null
  | bool (value : Bool) : Alike (.bool value) (.bool value)
  | number (value : Number) : Alike (.number value) (.number value)
  | string (text : String) : Alike (.string text) (.string text)
  | array {items others : List Tree} : items.length = others.length →
      (∀ (index : Nat) (first second : Tree), items[index]? = some first →
        others[index]? = some second → Alike first second) →
      Alike (.array items) (.array others)
  | object {members others : List (String × Tree)} :
      (∀ name, (last? name members).isSome = (last? name others).isSome) →
      (∀ (name : String) (first second : Tree), last? name members = some first →
        last? name others = some second → Alike first second) →
      Alike (.object members) (.object others)

theorem arrange_eq_of_alike {first second : Tree} (alike : Alike first second) :
    first.arrange = second.arrange := by
  induction alike with
  | null => rfl
  | bool => rfl
  | number => rfl
  | string => rfl
  | @array items others long _ ih =>
    rw [arrange, arrange, arrangeItems_eq_map, arrangeItems_eq_map]
    congr 1
    apply List.ext_getElem?
    intro index
    rw [List.getElem?_map, List.getElem?_map]
    cases here : items[index]? with
    | none =>
      rw [List.getElem?_eq_none_iff] at here
      rw [List.getElem?_eq_none (long ▸ here)]
    | some item =>
      have inside := (List.getElem?_eq_some_iff.mp here).1
      obtain ⟨other, there⟩ : ∃ other, others[index]? = some other :=
        ⟨_, List.getElem?_eq_getElem (long ▸ inside)⟩
      rw [there]
      exact congrArg some (ih index item other here there)
  | @object members others named _ ih =>
    rw [arrange, arrange]
    congr 1
    apply Entries.ext (arrangeMembers_ascending members) (arrangeMembers_ascending others)
    intro name
    rw [find?_arrangeMembers, find?_arrangeMembers]
    have both := named name
    cases here : last? name members with
    | none =>
      rw [here, Option.isSome_none, eq_comm, Option.isSome_eq_false_iff,
        Option.isNone_iff_eq_none] at both
      rw [both]
    | some value =>
      rw [here] at both
      obtain ⟨other, there⟩ := Option.isSome_iff_exists.mp both.symm
      rw [there, Option.map_some, Option.map_some, ih name value other here there]

/-- In every object the names ascend strictly in the order of their UTF-8 bytes. -/
inductive Ascends : Tree → Prop
  | null : Ascends .null
  | bool (value : Bool) : Ascends (.bool value)
  | number (value : Number) : Ascends (.number value)
  | string (text : String) : Ascends (.string text)
  | array {items : List Tree} : (∀ item ∈ items, Ascends item) → Ascends (.array items)
  | object {members : List (String × Tree)} :
      members.Pairwise (fun first second => Bytes.ofString first.1 < Bytes.ofString second.1) →
      (∀ member ∈ members, Ascends member.2) → Ascends (.object members)

theorem ascends_of_ordered {tree : Tree} (ordered : tree.Ordered) : tree.Ascends := by
  induction ordered with
  | null => exact .null
  | bool value => exact .bool value
  | number value => exact .number value
  | string text => exact .string text
  | array _ ih => exact .array ih
  | object ascending _ ih => exact .object (ascending.imp Bytes.ofString_lt) ih

theorem mem_arrangeMembers {earlier members : List (String × Tree)} {member : String × Tree}
    (found : member ∈ arrangeMembers earlier members) :
    member ∈ earlier ∨ ∃ other ∈ members, member = (other.1, other.2.arrange) := by
  induction members generalizing earlier with
  | nil => exact .inl found
  | cons first members ih =>
    rw [arrangeMembers] at found
    rcases ih found with here | ⟨other, inside, same⟩
    · rcases Entries.mem_insert here with same | old
      · exact .inr ⟨first, List.mem_cons_self, same⟩
      · exact .inl old
    · exact .inr ⟨other, List.mem_cons_of_mem first inside, same⟩

theorem arrange_exact {tree : Tree} (exact : tree.Exact) : tree.arrange.Exact := by
  induction exact with
  | null => exact .null
  | bool value => exact .bool value
  | integer value least most => exact .integer value least most
  | real same => exact .real same
  | string text => exact .string text
  | array _ ih =>
    rw [arrange, arrangeItems_eq_map]
    exact .array (List.forall_mem_map.mpr ih)
  | object _ ih =>
    rw [arrange]
    refine .object ?_
    intro member found
    rcases mem_arrangeMembers found with nothing | ⟨other, inside, rfl⟩
    · cases nothing
    · exact ih other inside

theorem depth_arrange_le (tree : Tree) : tree.arrange.depth ≤ tree.depth := by
  match tree with
  | .array items =>
    rw [arrange, arrangeItems_eq_map, depth, depth, Nat.add_le_add_iff_right, itemsDepth_le_iff,
      List.forall_mem_map]
    intro item member
    have smaller := List.sizeOf_lt_of_mem member
    exact Nat.le_trans (depth_arrange_le item) (itemsDepth_le_iff.mp (Nat.le_refl _) item member)
  | .object members =>
    rw [arrange, depth, depth, Nat.add_le_add_iff_right, membersDepth_le_iff]
    intro member found
    rcases mem_arrangeMembers found with nothing | ⟨⟨name, value⟩, inside, rfl⟩
    · cases nothing
    · have smaller := List.sizeOf_lt_of_mem inside
      exact Nat.le_trans (depth_arrange_le value)
        (membersDepth_le_iff.mp (Nat.le_refl _) _ inside)
  | .null | .bool _ | .number _ | .string _ => exact Nat.le_refl _
termination_by tree
decreasing_by
  all_goals
    simp only [Tree.array.sizeOf_spec, Tree.object.sizeOf_spec, Prod.mk.sizeOf_spec] at *
    omega

end MetadataClient.Json.Tree
