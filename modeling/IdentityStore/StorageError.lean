/-
Why a repository does not do what it is asked.

The errors say what is wrong in the terms of realms, clients and users, and are
the same for every backend.  What lies below, a store that does not answer or a
file that cannot be read, shows only as `unavailable`, after which the same
request may succeed, or as `internal`.
-/
import IdentityStore.Fault
import IdentityStore.Store.Error

namespace IdentityStore

/-- Why a request was not met. -/
inductive StorageError where
  | notFound (entity name : String)
  | notFoundById (entity : String) (id : Uuid)
  | notMember (entity realm name : String)
  | duplicate (entity field value : String)
  | malformed (entity reason : String)
  /-- The name or the identifier of a record would change. -/
  | renameRejected (entity source target : String)
  /-- A realm lists members that have no records. -/
  | inconsistent (realm entity : String) (missing : List String)
  | unavailable (detail : String)
  | internal (detail : String)
  deriving DecidableEq

namespace StorageError

/-- What is said of the error. -/
def message : StorageError → String
  | .notFound entity name => s!"Entity not found: {entity} with name '{name}'"
  | .notFoundById entity id => s!"Entity not found: {entity} with id {id.render}"
  | .notMember entity realm name => s!"{entity} '{name}' is not a member of realm '{realm}'"
  | .duplicate entity field value => s!"Duplicate {entity}: {field} '{value}' already exists"
  | .malformed entity reason => s!"Malformed {entity}: {reason}"
  | .renameRejected entity source target => s!"Cannot rename {entity} '{source}' to '{target}'"
  | .inconsistent realm entity missing =>
    s!"Realm '{realm}' lists missing {entity} records: {Text.quoteList missing}"
  | .unavailable detail => s!"Storage unavailable: {detail}"
  | .internal detail => s!"Internal storage error: {detail}"

/-! ### Kinds -/

/-- Something that was named is not there. -/
def isNotFound : StorageError → Bool
  | .notFound .. | .notFoundById .. | .notMember .. => true
  | _ => false

/-- Something that was to be new is there already. -/
def isDuplicate : StorageError → Bool
  | .duplicate .. => true
  | _ => false

/-- The request itself is at fault. -/
def isMalformed : StorageError → Bool
  | .malformed .. | .renameRejected .. => true
  | _ => false

/-- What lies below does not answer. -/
def isUnavailable : StorageError → Bool
  | .unavailable _ => true
  | _ => false

/-- The same request may succeed later. -/
def isRetryable (e : StorageError) : Bool := e.isUnavailable

/-! ### Causes -/

/-- A payload that describes no record of the kind. -/
def ofPayload (entity : String) (fault : PayloadFault) : StorageError :=
  .malformed entity fault.message

/-- A store that does not answer. -/
def ofStore (e : StoreError) : StorageError :=
  if e.isUnavailable then .unavailable e.message else .internal e.message

/-- A stored record that can no longer be read. -/
def corrupt (entity key reason : String) : StorageError :=
  .internal s!"stored {entity} at '{key}' is corrupt: {reason}"

/-- A record stored under the name with another identifier. -/
def otherId (entity : String) (stored incoming : Uuid) : StorageError :=
  .renameRejected entity stored.render incoming.render

end StorageError

end IdentityStore
