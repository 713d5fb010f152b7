import MetadataClient.Document

/-! What a search of a namespace returns. -/
namespace MetadataClient

/-- Switches that clients may send. The store keeps them without acting on them. -/
structure CursorFlags where
  bits : UInt32
deriving DecidableEq

namespace CursorFlags

def none : CursorFlags := ⟨0⟩
def tailable : CursorFlags := ⟨2⟩
def noTimeout : CursorFlags := ⟨16⟩
def partialResults : CursorFlags := ⟨128⟩

def union (first second : CursorFlags) : CursorFlags :=
  ⟨first.bits ||| second.bits⟩

def contains (flags other : CursorFlags) : Bool :=
  flags.bits &&& other.bits == other.bits

def isEmpty (flags : CursorFlags) : Bool :=
  flags.bits == 0

end CursorFlags

/-- The documents that match, without the first `skip`, at most `limit` of them
unless the limit is zero, each with all its fields or those of the projection. -/
structure FindOptions where
  filter : Filter := .all
  projection : Option (List String) := none
  skip : Nat := 0
  limit : Nat := 0
  flags : CursorFlags := .none

namespace FindOptions

def scan : FindOptions := {}

def view (options : FindOptions) (document : Document) : Document :=
  match options.projection with
  | some fields => document.project fields
  | none => document

end FindOptions
end MetadataClient
