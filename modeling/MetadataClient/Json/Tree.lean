import MetadataClient.Entries
import MetadataClient.Decimal.Binary64

/-! JSON values. A `Tree` is a value as it is written, members in any order and
repeated or not. A `Value` is a tree in which the members of every object ascend by
name, so that each value has one representation; `Value.ofTree` finds it, the last
member of a name being the one that counts. -/
namespace MetadataClient.Json

/-- An integer that fits sixty-four bits, with or without sign, or a binary64
number. The two kinds are never equal. -/
inductive Number
  | integer (value : Int) (least : -0x8000000000000000 ≤ value)
      (most : value < 0x10000000000000000)
  | real (value : Binary64)
deriving DecidableEq

def Number.same : Number → Number → Bool
  | .integer first _ _, .integer second _ _ => first == second
  | .real first, .real second => first.same second
  | _, _ => false

inductive Tree
  | null
  | bool (value : Bool)
  | number (value : Number)
  | string (text : String)
  | array (items : List Tree)
  | object (members : List (String × Tree))

namespace Tree

inductive Ordered : Tree → Prop
  | null : Ordered .null
  | bool (value : Bool) : Ordered (.bool value)
  | number (value : Number) : Ordered (.number value)
  | string (text : String) : Ordered (.string text)
  | array {items : List Tree} : (∀ item ∈ items, Ordered item) → Ordered (.array items)
  | object {members : List (String × Tree)} : Entries.Ascending members →
      (∀ member ∈ members, Ordered member.2) → Ordered (.object members)

mutual

/-- The same value with ascending members. -/
def arrange : Tree → Tree
  | .null => .null
  | .bool value => .bool value
  | .number value => .number value
  | .string text => .string text
  | .array items => .array (arrangeItems items)
  | .object members => .object (arrangeMembers [] members)

def arrangeItems : List Tree → List Tree
  | [] => []
  | item :: rest => arrange item :: arrangeItems rest

def arrangeMembers (earlier : List (String × Tree)) :
    List (String × Tree) → List (String × Tree)
  | [] => earlier
  | (name, value) :: rest => arrangeMembers (Entries.insert name (arrange value) earlier) rest

end

theorem object_ordered_insert {members : List (String × Tree)} (name : String) {value : Tree}
    (ordered : Ordered (.object members)) (valueOrdered : Ordered value) :
    Ordered (.object (Entries.insert name value members)) := by
  cases ordered with
  | object ascending inner =>
      refine .object (Entries.insert_ascending name value ascending) fun member found => ?_
      rcases Entries.mem_insert found with rfl | old
      · exact valueOrdered
      · exact inner member old

mutual

theorem arrange_ordered (tree : Tree) : Ordered (arrange tree) := by
  match tree with
  | .null => exact .null
  | .bool value => exact .bool value
  | .number value => exact .number value
  | .string text => exact .string text
  | .array items => rw [arrange]; exact .array (arrangeItems_ordered items)
  | .object members =>
      rw [arrange]
      exact arrangeMembers_ordered [] members (.object Entries.ascending_nil (by simp))

theorem arrangeItems_ordered (items : List Tree) :
    ∀ item ∈ arrangeItems items, Ordered item := by
  match items with
  | [] => simp [arrangeItems]
  | item :: rest =>
      rw [arrangeItems]
      intro found member
      rcases List.mem_cons.mp member with rfl | later
      · exact arrange_ordered item
      · exact arrangeItems_ordered rest found later

theorem arrangeMembers_ordered (earlier members : List (String × Tree))
    (ordered : Ordered (.object earlier)) :
    Ordered (.object (arrangeMembers earlier members)) := by
  match members with
  | [] => rw [arrangeMembers]; exact ordered
  | (name, value) :: rest =>
      rw [arrangeMembers]
      exact arrangeMembers_ordered _ rest
        (object_ordered_insert name ordered (arrange_ordered value))

end

mutual

/-- Equality of ordered values: numbers of one kind by value, arrays and objects
entry by entry. -/
def same : Tree → Tree → Bool
  | .null, .null => true
  | .bool first, .bool second => first == second
  | .number first, .number second => first.same second
  | .string first, .string second => first == second
  | .array first, .array second => sameItems first second
  | .object first, .object second => sameMembers first second
  | _, _ => false

def sameItems : List Tree → List Tree → Bool
  | [], [] => true
  | first :: rest, second :: rest' => same first second && sameItems rest rest'
  | _, _ => false

def sameMembers : List (String × Tree) → List (String × Tree) → Bool
  | [], [] => true
  | (name, first) :: rest, (name', second) :: rest' =>
    name == name' && same first second && sameMembers rest rest'
  | _, _ => false

end

mutual

def depth : Tree → Nat
  | .array items => itemsDepth items + 1
  | .object members => membersDepth members + 1
  | _ => 0

def itemsDepth : List Tree → Nat
  | [] => 0
  | item :: rest => max (depth item) (itemsDepth rest)

def membersDepth : List (String × Tree) → Nat
  | [] => 0
  | (_, value) :: rest => max (depth value) (membersDepth rest)

end
end Tree

/-- A JSON value in its one representation. -/
structure Value where
  tree : Tree
  ordered : tree.Ordered

namespace Value

def ofTree (tree : Tree) : Value :=
  ⟨tree.arrange, tree.arrange_ordered⟩

def string (text : String) : Value :=
  ⟨.string text, .string text⟩

def asString? (value : Value) : Option String :=
  match value.tree with
  | .string text => some text
  | _ => none

def same (first second : Value) : Bool :=
  first.tree.same second.tree

end Value
end MetadataClient.Json
