import MetadataClient.Pool.Basic
import MetadataClient.Text.Quoted

/-! Connections to the metadata servers. All servers lead to one document store, so
a connection is only its number and the name of its server. -/
namespace MetadataClient

structure Connection where
  id : Nat
  server : String
deriving DecidableEq

namespace Connection

def description (connection : Connection) : String :=
  "MetaConnection \x7b id: " ++ toString connection.id ++ ", server: "
    ++ Text.quoted connection.server ++ ", .. \x7d"

end Connection

structure Servers where
  names : List String
  nextId : Nat

namespace Servers

def new (names : List String) : Servers :=
  ⟨names, 0⟩

/-- Without any server there is still the local one. -/
def backends (servers : Servers) : Nat :=
  max servers.names.length 1

def connect (servers : Servers) (index : Nat) : Except Error Connection × Servers :=
  if servers.backends ≤ index then (.error (.backendNotFound index), servers)
  else (.ok ⟨servers.nextId, (servers.names[index]?).getD "local"⟩,
    { servers with nextId := servers.nextId + 1 })

instance : Connector Servers Connection :=
  ⟨backends, connect⟩

end Servers

abbrev MetadataPool := Pool Servers Connection

def metadataIndex : Nat := 0

end MetadataClient
