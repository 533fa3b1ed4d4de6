/-
Everything a server knows, in one document: its realms with their members, and the
tables of clients and of users that need not be in any realm.
-/
import IdentityStore.Realm

namespace IdentityStore

open Json (Record Reader)

/-- All realms, clients and users of a server. -/
structure Snapshot where
  realms : List Realm := []
  clients : List Client := []
  users : List User := []
  deriving DecidableEq

namespace Snapshot

/-- The realm of a name. -/
def realm? (s : Snapshot) (name : String) : Option Realm := s.realms.find? (·.name = name)

/-- What is known of a snapshot while it is read. -/
structure Draft where
  realms : Option (List Realm) := none
  clients : Option (List Client) := none
  users : Option (List User) := none

/-- The fields of a snapshot, whose names may also begin with a capital. -/
def record : Record Draft Snapshot where
  title := "ServerData"
  blank := {}
  fields := [
    { Json.Field.of "realms" Draft.realms (fun b d => { d with realms := some b })
        (Json.list Realm.read) with otherName := some "Realms" },
    { Json.Field.of "clients" Draft.clients (fun b d => { d with clients := some b })
        (Json.list Client.read) with otherName := some "Clients" },
    { Json.Field.of "users" Draft.users (fun b d => { d with users := some b })
        (Json.list User.read) with otherName := some "Users" }]
  finish _ d := .ok {
    realms := d.realms.getD []
    clients := d.clients.getD []
    users := d.users.getD [] }

/-- Reads a snapshot, good or not. -/
def read (levels : Nat) : Reader Snapshot := record.read levels

/-- The rules that a snapshot has to keep: its clients are good, those of the table
first. -/
def validate (s : Snapshot) : Except Flaw Unit :=
  (s.clients ++ s.realms.flatMap Realm.clients).forM Client.validate

/-- The snapshot that a payload describes, which keeps the rules. -/
def ofPayload (payload : List UInt8) : Except PayloadFault Snapshot := do
  let snapshot ← (Json.readDocument (read Json.maxLevels) payload).mapError .unreadable
  snapshot.validate.mapError .flawed
  return snapshot

/-- The written form of a snapshot. -/
def write (s : Snapshot) : String :=
  Json.writeObject [("realms", Json.writeList (s.realms.map Realm.write)),
    ("clients", Json.writeList (s.clients.map Client.write)),
    ("users", Json.writeList (s.users.map User.write))]

end Snapshot

end IdentityStore
