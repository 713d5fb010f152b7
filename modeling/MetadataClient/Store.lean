import MetadataClient.Semantics.Basic

/-! A store is a name under which collections are listed, and the semantics of the
changes that are made to it. -/
namespace MetadataClient

structure Store where
  name : String
  semantics : Semantics
deriving DecidableEq

namespace Store

def listing (name : String) : String :=
  name ++ ".collections"

def standard (name : String) : Store :=
  ⟨name, Template.standard.semantics⟩

end Store
end MetadataClient
