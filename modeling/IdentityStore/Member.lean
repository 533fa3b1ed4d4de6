/-
Entries of membership lists.

A realm knows its members by name, which is how they are looked up, and by
identifier, which spares reading every record to find one.
-/
import IdentityStore.Json.Record
import IdentityStore.Json.Writer

namespace IdentityStore

open Json (Record Reader)

/-- A member as a realm lists it. -/
structure Member where
  id : Uuid
  name : String
  deriving DecidableEq

namespace Member

/-- What is known of a member while it is read. -/
structure Draft where
  id : Option Uuid := none
  name : Option String := none

/-- The fields of a member. -/
def record : Record Draft Member where
  title := "ExtendedIdentifier"
  blank := {}
  fields := [
    .of "id" Draft.id (fun b d => { d with id := some b }) fun _ => Json.uuid,
    .of "name" Draft.name (fun b d => { d with name := some b }) fun _ => Json.text "a string"]
  finish lack d := do
    let id ← lack.require 0 "id" d.id
    let name ← lack.require 1 "name" d.name
    return { id, name }

/-- Reads a member. -/
def read (levels : Nat) : Reader Member := record.read levels

/-- The written form of a member. -/
def write (m : Member) : String :=
  Json.writeObject [("id", Json.writeText m.id.render), ("name", Json.writeText m.name)]

/-- The members that one entry of a list spells. -/
def readEntry (entry : String) : Except Fault (List Member) :=
  Json.readDocument (Json.list read Json.maxLevels) (Utf8.ofString entry)

/-- Members as one entry of a list. -/
def writeEntry (members : List Member) : String := Json.writeList (members.map write)

end Member

end IdentityStore
