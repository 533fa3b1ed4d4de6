/-
Realms: tenants that are kept apart from each other.

The document of a realm may hold its clients and users in full.  A store that
keeps members elsewhere writes the document without them.
-/
import IdentityStore.Client
import IdentityStore.User

namespace IdentityStore

open Json (Record Reader)

/-- A realm with the members that its document holds. -/
structure Realm where
  name : String
  clients : List Client
  users : List User
  /-- How many seconds a token is good for. -/
  tokenExpiration : Int64
  /-- How many seconds a token may be renewed. -/
  refreshExpiration : Int64
  deriving DecidableEq

namespace Realm

/-- A realm without members. -/
def empty (name : String) (tokenExpiration refreshExpiration : Int64) : Realm :=
  ⟨name, [], [], tokenExpiration, refreshExpiration⟩

/-- The realm with its members left out. -/
def withoutMembers (r : Realm) : Realm := { r with clients := [], users := [] }

/-- The client of a name that the document holds. -/
def client? (r : Realm) (name : String) : Option Client := r.clients.find? (·.name = name)

/-- The user of a name that the document holds. -/
def user? (r : Realm) (name : String) : Option User := r.users.find? (·.name = name)

/-- What is known of a realm while it is read. -/
structure Draft where
  name : Option String := none
  clients : Option (List Client) := none
  users : Option (List User) := none
  tokenExpiration : Option Int64 := none
  refreshExpiration : Option Int64 := none

/-- Reads a number of seconds. -/
def readSeconds : Reader Int64 := fun s =>
  (Json.integer .i64 s).map fun n => (Int64.ofInt n.1, n.2)

/-- The fields of a realm. -/
def record : Record Draft Realm where
  title := "Realm"
  blank := {}
  fields := [
    .of "name" Draft.name (fun b d => { d with name := some b }) fun _ => Json.text "a string",
    .of "clients" Draft.clients (fun b d => { d with clients := some b }) (Json.list Client.read),
    .of "users" Draft.users (fun b d => { d with users := some b }) (Json.list User.read),
    .of "token_expiration" Draft.tokenExpiration
      (fun b d => { d with tokenExpiration := some b }) fun _ => readSeconds,
    .of "refresh_expiration" Draft.refreshExpiration
      (fun b d => { d with refreshExpiration := some b }) fun _ => readSeconds]
  finish lack d := do
    let name ← lack.require 0 "name" d.name
    return {
      name
      clients := d.clients.getD []
      users := d.users.getD []
      tokenExpiration := d.tokenExpiration.getD 0
      refreshExpiration := d.refreshExpiration.getD 0 }

/-- Reads a realm, good or not. -/
def read (levels : Nat) : Reader Realm := record.read levels

/-- The rules that a realm has to keep: it has a name, and its clients are good. -/
def validate (r : Realm) : Except Flaw Unit := do
  if r.name = "" then throw (.missing "name")
  r.clients.forM Client.validate

/-- The realm that a payload describes, which keeps the rules. -/
def ofPayload (payload : List UInt8) : Except PayloadFault Realm := do
  let realm ← (Json.readDocument (read Json.maxLevels) payload).mapError .unreadable
  realm.validate.mapError .flawed
  return realm

/-- The written form of a realm. -/
def write (r : Realm) : String :=
  Json.writeObject [("name", Json.writeText r.name),
    ("clients", Json.writeList (r.clients.map Client.write)),
    ("users", Json.writeList (r.users.map User.write)),
    ("token_expiration", toString r.tokenExpiration.toInt),
    ("refresh_expiration", toString r.refreshExpiration.toInt)]

end Realm

end IdentityStore
