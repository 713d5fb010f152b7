import MetadataClient.Client

/-! A session is a client in use: stores and listings are known by names. A listing
keeps the store it was started on, also when the name is given to another store. -/
namespace MetadataClient

/-- The client of a session is configured, or it has a pool and a queue of given limits over a
store that is kept or not. -/
inductive Origin
  | config (config : Config)
  | limits (servers : List String) (queueLimit poolLimit : Nat) (keepsStore : Bool)

/-- Stores have the number of their opening, and listings that of their store. -/
structure Session where
  origin : Origin
  client : Client
  stores : NameMap (Nat × Store)
  opened : Nat
  listings : NameMap (Nat × Listing)

namespace Session

def ofConfig (config : Config) (kept : DocumentStore) : Except Error Session := do
  let client ← Client.ofConfig config kept
  return ⟨.config config, client, .empty, 0, .empty⟩

def ofLimits (servers : List String) (queueLimit poolLimit : Nat) (keepsStore : Bool)
    (kept : DocumentStore) : Session :=
  ⟨.limits servers queueLimit poolLimit keepsStore,
    .new servers (if keepsStore then kept else .empty) queueLimit poolLimit, .empty, 0, .empty⟩

def openStore (session : Session) (name : String) (store : Store) : Session :=
  { session with
    stores := session.stores.insert name (session.opened, store)
    opened := session.opened + 1 }

def holders (session : Session) (name : String) : Option Nat :=
  (session.stores.find? name).map fun (number, _) =>
    1 + session.listings.entries.countP fun (_, of, _) => of == number

def free (session : Session) (name : String) : Option Session :=
  (session.listings.find? name).map fun (_, listing) =>
    { session with
      client := session.client.free listing
      listings := session.listings.erase name }

def keep (session : Session) (name : String) (store : Nat) (listing : Listing) : Session :=
  let session := (session.free name).getD session
  { session with listings := session.listings.insert name (store, listing) }

def advance (session : Session) (name : String) : Option (Bool × Session × List String) :=
  (session.listings.find? name).map fun (store, listing) =>
    let step := listing.advance
    (step.found,
      { session with listings := session.listings.insert name (store, step.listing) },
      step.warnings)

def freeAll (session : Session) : Session :=
  { session with
    client := session.listings.entries.foldl (fun client (_, _, listing) => client.free listing)
      session.client
    listings := .empty }

/-- Gives up all listings and the client, and starts with a new client. A configured
client writes what is queued before it goes. -/
def restart (session : Session) : Option (Session × List String) :=
  let session := session.freeAll
  match session.origin with
  | .config config =>
    session.client.close.map fun (store, warnings) =>
      ({ session with client := .overStore config store }, warnings)
  | .limits servers queueLimit poolLimit keepsStore =>
    let store := if keepsStore then session.client.service.store else .empty
    some ({ session with client := .new servers store queueLimit poolLimit }, [])

end Session
end MetadataClient
