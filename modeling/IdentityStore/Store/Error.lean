/-
What can go wrong in a store of keys and values.

Two of the errors pass: a store that cannot be reached now, or not in time, may
answer the same request later.
-/

namespace IdentityStore

/-- Why a store did not answer. -/
inductive StoreError where
  /-- The store cannot be reached. -/
  | connection (detail : String)
  | timeout
  /-- The key holds a text where a list was asked for, or the other way round. -/
  | wrongType (key : String)
  | configuration (detail : String)
  | internal (detail : String)
  deriving DecidableEq, Repr

namespace StoreError

/-- What is said of the error. -/
def message : StoreError → String
  | .connection detail => s!"store connection error: {detail}"
  | .timeout => "store operation timed out"
  | .wrongType key => s!"key '{key}' holds the wrong kind of value"
  | .configuration detail => s!"store configuration error: {detail}"
  | .internal detail => s!"internal store error: {detail}"

/-- Holds for the errors after which the same call may succeed. -/
def isUnavailable : StoreError → Bool
  | .connection _ | .timeout => true
  | .wrongType _ | .configuration _ | .internal _ => false

end StoreError

end IdentityStore
