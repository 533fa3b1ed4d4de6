/-
What clients and users have in common: a name to be stored by, an identifier, a
written form, and realms and snapshots that list them.
-/
import IdentityStore.Keys
import IdentityStore.Member
import IdentityStore.Snapshot

namespace IdentityStore

/-- A kind of record that realms have as members. -/
class Principal (α : Type) where
  kind : Kind
  id : α → Uuid
  name : α → String
  /-- The record that a payload describes. -/
  ofPayload : List UInt8 → Except PayloadFault α
  write : α → String
  /-- The members of the kind that a realm's document holds. -/
  ofRealm : Realm → List α
  inRealm : List α → Realm → Realm
  /-- The table of the kind in a snapshot. -/
  ofSnapshot : Snapshot → List α
  inSnapshot : List α → Snapshot → Snapshot

namespace Principal

instance : Principal Client where
  kind := .client
  id := Client.id
  name := Client.name
  ofPayload := Client.ofPayload
  write := Client.write
  ofRealm := Realm.clients
  inRealm clients r := { r with clients }
  ofSnapshot := Snapshot.clients
  inSnapshot clients s := { s with clients }

instance : Principal User where
  kind := .user
  id := User.id
  name := User.name
  ofPayload := User.ofPayload
  write := User.write
  ofRealm := Realm.users
  inRealm users r := { r with users }
  ofSnapshot := Snapshot.users
  inSnapshot users s := { s with users }

/-- The word for the kind in messages. -/
def entity (α : Type) [Principal α] : String := (kind α).entity

/-- How a realm lists a record. -/
def member {α : Type} [Principal α] (a : α) : Member := ⟨id a, name a⟩

end Principal

/-- The records of a kind. -/
abbrev Kind.Record : Kind → Type
  | .client => Client
  | .user => User

instance (k : Kind) : Principal k.Record :=
  match k with
  | .client => inferInstanceAs (Principal Client)
  | .user => inferInstanceAs (Principal User)

end IdentityStore
