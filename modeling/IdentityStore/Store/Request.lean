/-
What can be asked of a store of keys and values.

A key holds a text or a list of texts.  Every request is one indivisible step of
the store; between two of them anybody else's may come.
-/

namespace IdentityStore

/-- A single call of the store. -/
inductive Request where
  /-- The text under a key. -/
  | get (key : String)
  /-- The texts under some keys, nothing where there is none. -/
  | getMany (keys : List String)
  | set (key value : String)
  /-- Removes keys and counts those that were there. -/
  | delete (keys : List String)
  | has (key : String)
  /-- The list under a key, empty where there is none. -/
  | list (key : String)
  /-- Replaces the list under a key; an empty list removes the key. -/
  | setList (key : String) (entries : List String)
  /-- The keys that a pattern matches. -/
  | scan (pattern : String)
  deriving DecidableEq, Repr

namespace Request

/-- What the store answers. -/
abbrev Reply : Request → Type
  | .get _ => Option String
  | .getMany _ => List (Option String)
  | .set _ _ => Unit
  | .delete _ => Nat
  | .has _ => Bool
  | .list _ => List String
  | .setList _ _ => Unit
  | .scan _ => List String

/-- The keys that a request is about, or its pattern. -/
def subjects : Request → List String
  | .get key | .set key _ | .has key | .list key | .setList key _ | .scan key => [key]
  | .getMany keys | .delete keys => keys

end Request

end IdentityStore
