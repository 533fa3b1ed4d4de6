/-
Client applications, which ask for tokens on behalf of users.

A client has a name, by which it is stored, and an identifier that stays the same
for as long as the name is in use.  A confidential client can keep a secret; a
public one, such as an application in a browser, cannot.
-/
import IdentityStore.Json.Record
import IdentityStore.Json.Writer

namespace IdentityStore

open Json (Field Record Reader)

/-- Whether a client can keep a secret. -/
inductive ClientKind where
  | confidential
  | publicClient
  deriving DecidableEq, Repr

namespace ClientKind

/-- The words for the kinds. -/
def words : List (String × ClientKind) :=
  [("confidential", .confidential), ("public", .publicClient)]

/-- Reads the word of a kind. -/
def read (levels : Nat) : Reader ClientKind := Json.choice words levels

/-- The written form of a kind. -/
def write : ClientKind → String
  | .confidential => Json.writeText "confidential"
  | .publicClient => Json.writeText "public"

end ClientKind

/-- How a client proves that it is itself. -/
inductive AuthenticationKind where
  /-- By its identifier and a secret that it shares with the server. -/
  | idAndSecret
  deriving DecidableEq, Repr

namespace AuthenticationKind

/-- The number that stands for the kind. -/
def number : AuthenticationKind → Nat
  | .idAndSecret => 1

/-- The kind that a number stands for. -/
def ofNumber : Nat → Except Fault AuthenticationKind
  | 1 => .ok .idAndSecret
  | n => .error (.unknownAuthentication n)

/-- Reads the number of a kind. -/
def read : Reader AuthenticationKind := fun s => do
  let (n, rest) ← Json.natural .u8 s
  return (← ofNumber n, rest)

/-- The written form of a kind. -/
def write (k : AuthenticationKind) : String := toString k.number

end AuthenticationKind

/-- What a client proves itself with. -/
structure Authentication where
  kind : AuthenticationKind := .idAndSecret
  /-- The secret, or whatever else the kind asks for. -/
  value : String := ""
  /-- Whatever else belongs to the kind. -/
  attributes : Option Json.Value := none
  deriving DecidableEq, Repr

namespace Authentication

/-- What is known of an authentication while it is read. -/
structure Draft where
  kind : Option AuthenticationKind := none
  value : Option String := none
  attributes : Option (Option Json.Value) := none

/-- The fields of an authentication. -/
def record : Record Draft Authentication where
  title := "Authentication"
  blank := {}
  fields := [
    .of "type" Draft.kind (fun b d => { d with kind := some b }) fun _ => AuthenticationKind.read,
    .of "value" Draft.value (fun b d => { d with value := some b }) fun _ => Json.text "a string",
    .of "attributes" Draft.attributes (fun b d => { d with attributes := some b })
      fun levels => Json.optional (Json.value levels)]
  finish lack d := do
    let kind ← lack.require 0 "type" d.kind
    let value ← lack.require 1 "value" d.value
    return { kind, value, attributes := d.attributes.getD none }

/-- The written form; attributes are left out if there are none. -/
def write (a : Authentication) : String :=
  let attributes :=
    match a.attributes with
    | some v => [("attributes", v.write)]
    | none => []
  Json.writeObject
    ([("type", a.kind.write), ("value", Json.writeText a.value)] ++ attributes)

end Authentication

/-- A registered client application. -/
structure Client where
  kind : ClientKind
  id : Uuid
  /-- The name under which the client is stored. -/
  name : String
  authentication : Authentication
  deriving DecidableEq

namespace Client

/-- A client with a secret. -/
def confidential (id : Uuid) (name secret : String) : Client :=
  ⟨.confidential, id, name, { value := secret }⟩

/-- A client without a secret. -/
def publicClient (id : Uuid) (name : String) : Client := ⟨.publicClient, id, name, {}⟩

/-- Holds for the clients that cannot keep a secret. -/
def isPublic (c : Client) : Bool := c.kind = .publicClient

/-- The rules that a client has to keep: it has a name and an identifier. -/
def validate (c : Client) : Except Flaw Unit :=
  if c.name = "" then .error (.missing "name")
  else if c.id.isNil then .error (.nilUuid "id")
  else .ok ()

/-- What is known of a client while it is read. -/
structure Draft where
  kind : Option ClientKind := none
  id : Option Uuid := none
  name : Option String := none
  authentication : Option Authentication := none

/-- The fields of a client. -/
def record : Record Draft Client where
  title := "Client"
  blank := {}
  fields := [
    .of "type" Draft.kind (fun b d => { d with kind := some b }) ClientKind.read,
    .of "id" Draft.id (fun b d => { d with id := some b }) fun _ => Json.uuid,
    .of "name" Draft.name (fun b d => { d with name := some b }) fun _ => Json.text "a string",
    .of "auth" Draft.authentication (fun b d => { d with authentication := some b })
      Authentication.record.read]
  finish lack d := do
    let id ← lack.require 1 "id" d.id
    let name ← lack.require 2 "name" d.name
    let kind := d.kind.getD .confidential
    return { kind, id, name, authentication := d.authentication.getD {} }

/-- Reads a client, good or not. -/
def read (levels : Nat) : Reader Client := record.read levels

/-- The client that a payload describes, which keeps the rules. -/
def ofPayload (payload : List UInt8) : Except PayloadFault Client := do
  let client ← (Json.readDocument (read Json.maxLevels) payload).mapError .unreadable
  client.validate.mapError .flawed
  return client

/-- The written form of a client. -/
def write (c : Client) : String :=
  Json.writeObject [("type", c.kind.write), ("id", Json.writeText c.id.render),
    ("name", Json.writeText c.name), ("auth", c.authentication.write)]

end Client

end IdentityStore
