/-
Reading records and memberships out of a keyed store.

A record lies under its own key as the text it was written in, and a realm reaches
its members only by the names it lists.  A realm that has no document is unknown,
whatever else is stored under keys that would be its own.
-/
import IdentityStore.Membership
import IdentityStore.Plan
import IdentityStore.Principal

namespace IdentityStore.Keyed

open Principal (entity)

variable (keys : KeySpace)

/-! ### Realms -/

/-- The realm of a name, without members, if there is one. -/
def fetchRealm (name : String) : Plan (Option Realm) :=
  if isRealmName name then do
    let key := keys.realm name
    match ← Plan.ask (.get key) with
    | none => return none
    | some text =>
      match Realm.ofPayload (Utf8.ofString text) with
      | .ok realm => return some realm
      | .error fault => Plan.fail (.corrupt "Realm" key fault.message)
  else return none

/-- Whether there is a realm of a name. -/
def realmExists (name : String) : Plan Bool :=
  if isRealmName name then Plan.ask (.has (keys.realm name)) else return false

/-- Fails unless there is a realm of a name. -/
def requireRealm (name : String) : Plan Unit := do
  if ← realmExists keys name then return () else Plan.fail (.notFound "Realm" name)

/-- The realm of a name, without members. -/
def getRealm (name : String) : Plan Realm := do
  match ← fetchRealm keys name with
  | some realm => return realm
  | none => Plan.fail (.notFound "Realm" name)

/-! ### Records -/

/-- The record that a stored text spells. -/
def decode (α : Type) [Principal α] (key text : String) : Except StorageError α :=
  (Principal.ofPayload (Utf8.ofString text)).mapError fun fault =>
    .corrupt (entity α) key fault.message

/-- The record of a name, if there is one. -/
def fetch (α : Type) [Principal α] (name : String) : Plan (Option α) := do
  let key := keys.record (Principal.kind α) name
  match ← Plan.ask (.get key) with
  | none => return none
  | some text => Plan.ofExcept ((decode α key text).map some)

/-- The record of a name. -/
def get (α : Type) [Principal α] (name : String) : Plan α := do
  match ← fetch keys α name with
  | some a => return a
  | none => Plan.fail (.notFound (entity α) name)

/-! ### Members -/

/-- The members listed under a membership key. -/
def loadMembers (key : String) : Plan (List Member) := do
  let entries ← Plan.ask (.list key)
  Plan.ofExcept ((Membership.ofEntries entries).mapError fun fault =>
    .corrupt "membership" key fault.message)

/-- The members of a kind that an existing realm lists. -/
def membersOf (kind : Kind) (realm : String) : Plan (List Member) := do
  requireRealm keys realm
  loadMembers (keys.members kind realm)

/-- The record of a realm's member of a name. -/
def getFrom (α : Type) [Principal α] (realm name : String) : Plan α := do
  let members ← membersOf keys (Principal.kind α) realm
  match members.find? (·.name = name) with
  | none => Plan.fail (.notMember (entity α) realm name)
  | some member => get keys α member.name

/-- The record of a realm's user of an identifier. -/
def getUserById (realm : String) (id : Uuid) : Plan User := do
  let members ← membersOf keys .user realm
  match members.find? (·.id = id) with
  | none => Plan.fail (.notFoundById "User" id)
  | some member => get keys User member.name

/-- Sorts what was found under the keys of members: the records, and the names of the
members that have none.  The first text that spells no record is an error. -/
def sortFound (α : Type) [Principal α] :
    List (Member × Option String) → Except StorageError (List α × List String)
  | [] => .ok ([], [])
  | (member, some text) :: rest => do
    let a ← decode α (keys.record (Principal.kind α) member.name) text
    let (records, missing) ← sortFound α rest
    return (a :: records, missing)
  | (member, none) :: rest => do
    let (records, missing) ← sortFound α rest
    return (records, member.name :: missing)

/-- The records of all members of a kind, read at once. -/
def getAllFrom (α : Type) [Principal α] (realm : String) : Plan (List α) := do
  let members ← membersOf keys (Principal.kind α) realm
  if members = [] then return []
  else do
    let texts ← Plan.ask
      (.getMany (members.map fun m => keys.record (Principal.kind α) m.name))
    let (records, missing) ← Plan.ofExcept (sortFound keys α (members.zip texts))
    if missing = [] then return records
    else Plan.fail (.inconsistent realm (entity α) missing)

/-- The realm of a name with its members in full. -/
def getRealmWithMembers (name : String) : Plan Realm := do
  let realm ← getRealm keys name
  let clients ← getAllFrom keys Client name
  let users ← getAllFrom keys User name
  return { realm with clients, users }

end IdentityStore.Keyed
