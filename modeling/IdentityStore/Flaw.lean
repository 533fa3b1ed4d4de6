/-
The rules of identity that a well-formed document can still break.
-/

namespace IdentityStore

/-- A rule that a record breaks: a field it must have, or one that holds what it
must not. -/
inductive Flaw where
  | missing (field : String)
  | invalid (field reason : String)
  deriving DecidableEq, Repr

/-- What is said of the flaw. -/
def Flaw.message : Flaw → String
  | .missing field => s!"missing required field '{field}'"
  | .invalid field reason => s!"invalid value for '{field}': {reason}"

/-- The flaw of an identifier that identifies nothing. -/
def Flaw.nilUuid (field : String) : Flaw := .invalid field "nil UUID"

end IdentityStore
