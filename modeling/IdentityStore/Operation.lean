/-
What a repository can be asked, whatever keeps its records.

Clients and users are treated alike, so most operations name the kind of record they
are about.  Payloads are bytes, since whether they are a record at all is for the
repository to find out.
-/
import IdentityStore.Principal

namespace IdentityStore

/-- A request to a repository. -/
inductive Operation where
  | getRealm (name : String)
  /-- A realm with its members in full. -/
  | getRealmWithMembers (name : String)
  /-- Creates a realm with the members in its payload. -/
  | createRealm (payload : List UInt8)
  | updateRealm (name : String) (payload : List UInt8)
  | deleteRealm (name : String)
  | get (kind : Kind) (name : String)
  | getFrom (kind : Kind) (realm name : String)
  | getUserById (realm : String) (id : Uuid)
  | getAllFrom (kind : Kind) (realm : String)
  /-- Stores a new record or a new version of one. -/
  | create (kind : Kind) (payload : List UInt8)
  | update (kind : Kind) (name : String) (payload : List UInt8)
  /-- Removes a record and its place in every realm. -/
  | delete (kind : Kind) (name : String)
  /-- Makes a record a member of a realm. -/
  | add (kind : Kind) (realm name : String)
  /-- Ends the membership of a record in a realm. -/
  | remove (kind : Kind) (realm name : String)
  deriving DecidableEq

/-- What a repository gives back. -/
inductive Answer where
  | done
  | realm (r : Realm)
  | one (kind : Kind) (record : kind.Record)
  | many (kind : Kind) (records : List kind.Record)

end IdentityStore
