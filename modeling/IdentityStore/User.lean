/-
User accounts.

A user is a document of any shape that says who it is about: `info.sub` is the
identifier and `info.preferred_username` the name under which the user is stored.
All else is carried along and written back as it came.
-/
import IdentityStore.Json.Reader
import IdentityStore.Json.Writer

namespace IdentityStore

open Json (Value Reader)

/-- What a document says about the identity of its user, or the first rule of
identity that it breaks. -/
def identity (document : Value) : Except Flaw (Uuid × String) := do
  let some info := document.member? "info" | throw (.missing "info")
  let .object _ := info | throw (.missing "info")
  let some (.text name) := info.member? "preferred_username"
    | throw (.missing "info.preferred_username")
  if name = "" then throw (.missing "info.preferred_username")
  let some (.text spelling) := info.member? "sub" | throw (.missing "info.sub")
  let id ← (Uuid.read spelling).mapError fun flaw => .invalid "info.sub" flaw.message
  if id.isNil then throw (.nilUuid "info.sub")
  return (id, name)

/-- A user account: a document and the identity that it states. -/
structure User where
  document : Value
  id : Uuid
  name : String
  identity_document : identity document = .ok (id, name)
  deriving DecidableEq

namespace User

/-- The user whom a document is about. -/
def ofDocument (document : Value) : Except Flaw User :=
  match h : identity document with
  | .ok (id, name) => .ok ⟨document, id, name, h⟩
  | .error flaw => .error flaw

/-- The object that holds the identity and the claims. -/
def info? (u : User) : Option Value :=
  match u.document.member? "info" with
  | some (.object members) => some (.object members)
  | _ => none

/-- A single claim. -/
def claim? (u : User) (name : String) : Option Value := u.info?.bind (·.member? name)

/-- Reads a user within another document, where a broken rule is a fault of that
document. -/
def read (levels : Nat) : Reader User := fun s => do
  let (document, rest) ← Json.value levels s
  let user ← (ofDocument document).mapError .badUser
  return (user, rest)

/-- The user that a payload describes. -/
def ofPayload (payload : List UInt8) : Except PayloadFault User := do
  let document ← (Json.readDocument (Json.value Json.maxLevels) payload).mapError .unreadable
  (ofDocument document).mapError .flawed

/-- The written form of a user, which is the document. -/
def write (u : User) : String := u.document.write

end User

end IdentityStore
