import MetadataClient.Json.Reader

/-! Documents are JSON objects. The store looks into them only to compare and to
select their top-level fields; to keep one it writes its compact JSON text, with the
fields in ascending order, so that equal documents have equal bytes. -/
namespace MetadataClient

structure Document where
  fields : NameMap Json.Value

structure Filter where
  fields : NameMap Json.Value

namespace Document

def idField : String := "_id"

def empty : Document :=
  ⟨.empty⟩

def get? (document : Document) (name : String) : Option Json.Value :=
  document.fields.find? name

def getString? (document : Document) (name : String) : Option String :=
  (document.get? name).bind Json.Value.asString?

def insert (document : Document) (name : String) (value : Json.Value) : Document :=
  ⟨document.fields.insert name value⟩

theorem get?_insert (document : Document) (name asked : String) (value : Json.Value) :
    (document.insert name value).get? asked =
      if name = asked then some value else document.get? asked :=
  SortedMap.find?_insert ..

/-- The fields that are asked for, and the identity. -/
def project (document : Document) (wanted : List String) : Document :=
  ⟨document.fields.filter fun (name, _) => name == idField || wanted.contains name⟩

def tree (document : Document) : Json.Tree :=
  .object (document.fields.entries.map fun (name, value) => (name, value.tree))

/-- How many arrays and objects are open at the innermost point, the document itself
being the first. -/
def depth (document : Document) : Nat :=
  document.tree.depth

def same (first second : Document) : Bool :=
  first.tree.same second.tree

def ofMembers (members : List (String × Json.Tree)) : Document :=
  ⟨.ofList (members.map fun (name, tree) => (name, Json.Value.ofTree tree))⟩

def encode (document : Document) : Bytes :=
  document.tree.print

def decode (bytes : Bytes) : Except Json.Fault Document :=
  (Json.parseObject bytes).map ofMembers

def text (document : Document) : String :=
  (Bytes.toString? document.encode).getD ""

end Document

namespace Filter

def all : Filter :=
  ⟨.empty⟩

def and (filter : Filter) (name : String) (value : Json.Value) : Filter :=
  ⟨filter.fields.insert name value⟩

def equals (name : String) (value : Json.Value) : Filter :=
  all.and name value

def isEmpty (filter : Filter) : Bool :=
  filter.fields.entries.isEmpty

def accepts (filter : Filter) (document : Document) : Bool :=
  filter.fields.entries.all fun (name, wanted) =>
    match document.get? name with
    | some value => value.same wanted
    | none => false

end Filter
end MetadataClient
