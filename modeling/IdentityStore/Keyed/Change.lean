/-
Changing records and memberships in a keyed store.

Whatever reads a key before it writes it holds the lock of the key meanwhile, so
that no change made in between is lost.  Of several writes the one that makes the
others count comes last, so that an operation that was cut short can be repeated.
-/
import IdentityStore.Keyed.Lookup

namespace IdentityStore.Keyed

open Principal (entity)

variable (keys : KeySpace)

/-! ### Membership lists -/

/-- Rewrites the list under a membership key, if `change` gives another.  Where a
realm is named, it has to exist once the lock is held. -/
def changeMembers (key : String) (realm : Option String)
    (change : List Member → Except StorageError (Option (List Member))) : Plan Unit :=
  Plan.locked key do
    match realm with
    | some name => requireRealm keys name
    | none => pure ()
    let members ← loadMembers key
    match ← Plan.ofExcept (change members) with
    | none => return ()
    | some members => Plan.ask (.setList key (Membership.toEntries members))

/-- Makes the list under a membership key hold just the given members. -/
def resetMembers (key : String) (members : List Member) : Plan Unit :=
  changeMembers keys key none fun current =>
    .ok (if current = members then none else some members)

/-- Takes a name out of the lists under some keys, one after the other. -/
def removeEverywhere (name : String) : (lists : List String) → Plan Unit
  | [] => return ()
  | key :: rest => do
    changeMembers keys key none fun members =>
      let left := Membership.without name members
      .ok (if left.length = members.length then none else some left)
    removeEverywhere name rest

/-! ### Records -/

/-- The text of a payload that is about to be stored. -/
def payloadText (entity : String) (payload : List UInt8) : Except StorageError String :=
  (Utf8.decode payload).mapError fun flaw => .malformed entity flaw.message

/-- Refuses a record if another identifier is stored under its name. -/
def checkId {α : Type} [Principal α] (stored : Option α) (a : α) : Except StorageError Unit :=
  match stored with
  | none => .ok ()
  | some s =>
    if Principal.id s = Principal.id a then .ok ()
    else .error (.otherId (entity α) (Principal.id s) (Principal.id a))

/-- Stores a record in the given words, unless that would change an identifier. -/
def store {α : Type} [Principal α] (a : α) (text : String) : Plan Unit :=
  let key := keys.record (Principal.kind α) (Principal.name a)
  Plan.locked key do
    let stored ← fetch keys α (Principal.name a)
    Plan.ofExcept (checkId stored a)
    Plan.ask (.set key text)

/-- The record that a payload of a request describes. -/
def ofRequest (α : Type) [Principal α] (payload : List UInt8) : Except StorageError α :=
  (Principal.ofPayload payload).mapError (.ofPayload (entity α))

/-- Stores a new record or a new version of one, in the words of the payload. -/
def create (α : Type) [Principal α] (payload : List UInt8) : Plan α := do
  let a ← Plan.ofExcept (ofRequest α payload)
  let text ← Plan.ofExcept (payloadText (entity α) payload)
  store keys a text
  return a

/-- Stores a new version of a record that is there, in the words of the payload. -/
def update (α : Type) [Principal α] (name : String) (payload : List UInt8) : Plan α := do
  let a ← Plan.ofExcept (ofRequest α payload)
  let stored ← get keys α name
  if Principal.name a ≠ Principal.name stored then
    Plan.fail (.renameRejected (entity α) (Principal.name stored) (Principal.name a))
  else do
    Plan.ofExcept (checkId (some stored) a)
    let text ← Plan.ofExcept (payloadText (entity α) payload)
    Plan.ask (.set (keys.record (Principal.kind α) name) text)
    return a

/-- Removes a record after its name has left every list. -/
def delete (kind : Kind) (name : String) : Plan Unit := do
  let key := keys.record kind name
  if ← Plan.ask (.has key) then do
    let lists ← Plan.ask (.scan (keys.membersPattern kind))
    removeEverywhere keys name lists
    let _ ← Plan.ask (.delete [key])
    return ()
  else Plan.fail (.notFound kind.entity name)

/-- Makes a record a member of a realm. -/
def add (α : Type) [Principal α] (realm name : String) : Plan Unit := do
  requireRealm keys realm
  let a ← get keys α name
  changeMembers keys (keys.members (Principal.kind α) realm) (some realm) fun members =>
    .ok (some (Membership.upsert (Principal.member a) members))

/-- Ends the membership of a name in a realm. -/
def remove (kind : Kind) (realm name : String) : Plan Unit :=
  changeMembers keys (keys.members kind realm) (some realm) fun members =>
    let left := Membership.without name members
    if left.length = members.length then .error (.notMember kind.entity realm name)
    else .ok (some left)

/-! ### Realms -/

/-- Refuses members of a new realm of which two share a name, or whose identifier is
not the one that is stored. -/
def checkNewMembers {α : Type} [Principal α] (seen : List String) : List α → Plan Unit
  | [] => return ()
  | a :: rest =>
    let name := Principal.name a
    if name ∈ seen then Plan.fail (.duplicate (entity α) "name" name)
    else do
      let stored ← fetch keys α name
      Plan.ofExcept (checkId stored a)
      checkNewMembers (name :: seen) rest

/-- Stores records one after the other. -/
def storeAll {α : Type} [Principal α] : List α → Plan Unit
  | [] => return ()
  | a :: rest => do
    store keys a (Principal.write a)
    storeAll rest

/-- Stores the document of a realm, without members. -/
def putRealm (realm : Realm) : Plan Unit :=
  Plan.ask (.set (keys.realm realm.name) realm.withoutMembers.write)

/-- The realm that a payload of a request describes. -/
def realmOfRequest (payload : List UInt8) : Except StorageError Realm :=
  (Realm.ofPayload payload).mapError (.ofPayload "Realm")

/-- Creates a realm with the members in its payload.  Nothing is written before all of
them are found fit, and the document of the realm is written last. -/
def createRealm (payload : List UInt8) : Plan Realm := do
  let realm ← Plan.ofExcept (realmOfRequest payload)
  Plan.ofExcept (checkRealmName realm.name)
  if ← realmExists keys realm.name then Plan.fail (.duplicate "Realm" "name" realm.name)
  else do
    checkNewMembers keys [] realm.clients
    checkNewMembers keys [] realm.users
    storeAll keys realm.clients
    storeAll keys realm.users
    resetMembers keys (keys.members .client realm.name) (realm.clients.map Principal.member)
    resetMembers keys (keys.members .user realm.name) (realm.users.map Principal.member)
    putRealm keys realm
    return realm

/-- Changes what a realm's document says apart from its members. -/
def updateRealm (name : String) (payload : List UInt8) : Plan Realm := do
  let realm ← Plan.ofExcept (realmOfRequest payload)
  if realm.name ≠ name then Plan.fail (.renameRejected "Realm" name realm.name)
  else do
    requireRealm keys name
    putRealm keys realm
    return realm.withoutMembers

/-- Removes a realm and its membership lists; the members stay. -/
def deleteRealm (name : String) : Plan Unit := do
  requireRealm keys name
  let clients := keys.members .client name
  let users := keys.members .user name
  Plan.locked clients (Plan.locked users do
    let _ ← Plan.ask (.delete [keys.realm name, clients, users])
    return ())

end IdentityStore.Keyed
