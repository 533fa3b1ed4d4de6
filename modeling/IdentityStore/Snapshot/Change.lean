/-
Reading and changing a snapshot.

A snapshot holds a client or user as often as it is listed: once in its table,
perhaps, and once in every realm that it is a member of.  The table is asked first
and the realms in their order after it; a change of a record is made to every copy.
Names are compared exactly, and of several realms of one name the first counts.
-/
import IdentityStore.Principal

namespace IdentityStore.Snapshot

open Principal (entity name)

variable {α : Type} [Principal α]

/-! ### Lists of records -/

/-- Puts a record in the place of the first of its name. -/
def replaceFirst (a : α) : List α → List α
  | [] => []
  | b :: rest => if name b = name a then a :: rest else b :: replaceFirst a rest

/-- Puts a record in the place of the first of its name, or at the end. -/
def upsert (a : α) : List α → List α
  | [] => [a]
  | b :: rest => if name b = name a then a :: rest else b :: upsert a rest

/-- Puts a record at the end unless one of its name is there. -/
def addMissing (as : List α) (a : α) : List α :=
  if as.any (name · = name a) then as else as ++ [a]

/-- Takes the first record of a name out, if there is one. -/
def takeFirst? (n : String) : List α → Option (α × List α)
  | [] => none
  | a :: rest =>
    if name a = n then some (a, rest) else (takeFirst? n rest).map fun t => (t.1, a :: t.2)

/-! ### Reading -/

/-- All copies of records of a kind, in the order in which they are asked. -/
def copies (α : Type) [Principal α] (s : Snapshot) : List α :=
  Principal.ofSnapshot s ++ s.realms.flatMap Principal.ofRealm

/-- The record of a name, if there is one. -/
def find? (α : Type) [Principal α] (s : Snapshot) (n : String) : Option α :=
  (s.copies α).find? (name · = n)

/-- The record of a name. -/
def get (α : Type) [Principal α] (s : Snapshot) (n : String) : Except StorageError α :=
  match s.find? α n with
  | some a => .ok a
  | none => .error (.notFound (entity α) n)

/-- The realm of a name. -/
def getRealm (s : Snapshot) (n : String) : Except StorageError Realm :=
  match s.realm? n with
  | some r => .ok r
  | none => .error (.notFound "Realm" n)

/-- The realm's copies of its members of a kind. -/
def getAllFrom (α : Type) [Principal α] (s : Snapshot) (realm : String) :
    Except StorageError (List α) := do
  return Principal.ofRealm (← s.getRealm realm)

/-- The realm's copy of its member of a name. -/
def getFrom (α : Type) [Principal α] (s : Snapshot) (realm n : String) :
    Except StorageError α := do
  match (← s.getAllFrom α realm).find? (name · = n) with
  | some a => return a
  | none => throw (.notMember (entity α) realm n)

/-- The realm's copy of its user of an identifier. -/
def getUserById (s : Snapshot) (realm : String) (id : Uuid) : Except StorageError User := do
  match (← s.getAllFrom User realm).find? (·.id = id) with
  | some u => return u
  | none => throw (.notFoundById "User" id)

/-! ### Changing -/

/-- Changes the table of a kind. -/
def modifyTable (f : List α → List α) (s : Snapshot) : Snapshot :=
  Principal.inSnapshot (f (Principal.ofSnapshot s)) s

/-- Changes the members of a kind in a realm. -/
def modifyMembers (f : List α → List α) (r : Realm) : Realm :=
  Principal.inRealm (f (Principal.ofRealm r)) r

/-- Changes the first realm of a name. -/
def modifyRealm (n : String) (f : Realm → Realm) (s : Snapshot) : Snapshot :=
  let rec go : List Realm → List Realm
    | [] => []
    | r :: rest => if r.name = n then f r :: rest else r :: go rest
  { s with realms := go s.realms }

/-- Changes every realm. -/
def modifyRealms (f : Realm → Realm) (s : Snapshot) : Snapshot :=
  { s with realms := s.realms.map f }

/-- Puts a record into its table and in the place of its copies in realms. -/
def put (a : α) (s : Snapshot) : Snapshot :=
  (s.modifyTable (upsert a)).modifyRealms (modifyMembers (replaceFirst a))

/-- Refuses a record if another identifier is stored under its name. -/
def checkId (s : Snapshot) (a : α) : Except StorageError Unit :=
  match s.find? α (name a) with
  | none => .ok ()
  | some stored =>
    if Principal.id stored = Principal.id a then .ok ()
    else .error (.otherId (entity α) (Principal.id stored) (Principal.id a))

/-- The record that a payload of a request describes. -/
def ofRequest (α : Type) [Principal α] (payload : List UInt8) : Except StorageError α :=
  (Principal.ofPayload payload).mapError (.ofPayload (entity α))

/-- Stores a new record or a new version of one. -/
def create (α : Type) [Principal α] (payload : List UInt8) (s : Snapshot) :
    Except StorageError (α × Snapshot) := do
  let a ← ofRequest α payload
  s.checkId a
  return (a, s.put a)

/-- Stores a new version of a record that is there. -/
def update (α : Type) [Principal α] (n : String) (payload : List UInt8) (s : Snapshot) :
    Except StorageError (α × Snapshot) := do
  let a ← ofRequest α payload
  let stored ← s.get α n
  if name a ≠ name stored then throw (.renameRejected (entity α) (name stored) (name a))
  if Principal.id a ≠ Principal.id stored then
    throw (.otherId (entity α) (Principal.id stored) (Principal.id a))
  return (a, s.put a)

/-- Removes every copy of a record. -/
def delete (α : Type) [Principal α] (n : String) (s : Snapshot) :
    Except StorageError Snapshot := do
  let _ ← s.get α n
  let drop (as : List α) : List α := as.filter (name · ≠ n)
  return (s.modifyTable drop).modifyRealms (modifyMembers drop)

/-- Makes a record a member of a realm. -/
def add (α : Type) [Principal α] (realm n : String) (s : Snapshot) :
    Except StorageError Snapshot := do
  let a ← s.get α n
  let _ ← s.getRealm realm
  return s.modifyRealm realm (modifyMembers (upsert a))

/-- Ends the membership of a name in a realm.  A record that only the realm held moves
to the table. -/
def remove (α : Type) [Principal α] (realm n : String) (s : Snapshot) :
    Except StorageError Snapshot := do
  let members ← s.getAllFrom α realm
  match takeFirst? n members with
  | none => throw (.notMember (entity α) realm n)
  | some (a, rest) =>
    return (s.modifyRealm realm (modifyMembers fun _ => rest)).modifyTable fun as =>
      addMissing as a

/-! ### Realms -/

/-- The realm that a payload of a request describes. -/
def realmOfRequest (payload : List UInt8) : Except StorageError Realm :=
  (Realm.ofPayload payload).mapError (.ofPayload "Realm")

/-- Creates a realm with the members in its payload, which are stored with it. -/
def createRealm (payload : List UInt8) (s : Snapshot) :
    Except StorageError (Realm × Snapshot) := do
  let realm ← realmOfRequest payload
  if (s.realm? realm.name).isSome then throw (.duplicate "Realm" "name" realm.name)
  realm.clients.forM s.checkId
  realm.users.forM s.checkId
  let s := s.modifyTable fun clients => realm.clients.foldl (fun as a => upsert a as) clients
  let s := s.modifyTable fun users => realm.users.foldl (fun as a => upsert a as) users
  return (realm, { s with realms := s.realms ++ [realm] })

/-- Changes what a realm's document says apart from its members. -/
def updateRealm (n : String) (payload : List UInt8) (s : Snapshot) :
    Except StorageError (Realm × Snapshot) := do
  let update ← realmOfRequest payload
  if update.name ≠ n then throw (.renameRejected "Realm" n update.name)
  let stored ← s.getRealm n
  let change (r : Realm) : Realm :=
    { r with
      tokenExpiration := update.tokenExpiration
      refreshExpiration := update.refreshExpiration }
  return (change stored, s.modifyRealm n change)

/-- Removes a realm.  Records that only the realm held move to their tables. -/
def deleteRealm (n : String) (s : Snapshot) : Except StorageError Snapshot := do
  let removed ← s.getRealm n
  let s := { s with realms := s.realms.eraseP (·.name = n) }
  let s := s.modifyTable fun clients => removed.clients.foldl addMissing clients
  return s.modifyTable fun users => removed.users.foldl addMissing users

end IdentityStore.Snapshot
