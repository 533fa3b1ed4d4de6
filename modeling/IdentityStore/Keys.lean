/-
Where records and membership lists are kept.

Every key begins with a namespace, so that several deployments can share a store,
and goes on with the kind of record and its name.  The scheme is fixed, since other
programs read the same keys.

A realm must not be named like a membership list of another realm, because the two
would share a key; and a namespace must not hold a character that patterns give a
meaning to, because the pattern of all membership lists begins with it.
-/
import IdentityStore.StorageError

namespace IdentityStore

/-- The kinds of record that realms have as members. -/
inductive Kind where
  | client
  | user
  deriving DecidableEq, Repr

namespace Kind

/-- The word for the kind in keys. -/
def label : Kind → String
  | .client => "client"
  | .user => "user"

/-- The word for the kind in messages. -/
def entity : Kind → String
  | .client => "Client"
  | .user => "User"

/-- How the key of a membership list ends. -/
def suffix (k : Kind) : String := "_" ++ k.label ++ "s"

end Kind

/-- The characters that patterns give a meaning to. -/
def patternChars : List Char := ['*', '?', '[', ']', '\\']

/-- Holds for the namespaces that keys can begin with: they are not empty and mean
themselves in patterns. -/
def isNamespace (ns : String) : Bool :=
  ns ≠ "" && ns.toList.all fun c => !patternChars.contains c

/-- The keys of one namespace. -/
structure KeySpace where
  root : String
  plain : isNamespace root = true

namespace KeySpace

/-- The namespace of a deployment that names none. -/
def default : KeySpace := ⟨"fe", by decide⟩

instance : Inhabited KeySpace := ⟨default⟩

/-- The keys of a namespace. -/
def ofNamespace (ns : String) : Except StorageError KeySpace :=
  if h : isNamespace ns then .ok ⟨ns, h⟩
  else if ns = "" then .error (.malformed "Namespace" "namespace is empty")
  else .error (.malformed "Namespace" s!"namespace '{ns}' contains glob characters")

variable (keys : KeySpace)

/-- The key of a realm. -/
def realm (name : String) : String := keys.root ++ ".realm_" ++ name

/-- The key of a client or user. -/
def record (kind : Kind) (name : String) : String :=
  keys.root ++ "." ++ kind.label ++ "_" ++ name

/-- The key of the list of a realm's members of a kind. -/
def members (kind : Kind) (realm : String) : String := keys.realm realm ++ kind.suffix

/-- The pattern of all lists of members of a kind. -/
def membersPattern (kind : Kind) : String := keys.members kind "*"

end KeySpace

/-- Holds for the names that a realm may have. -/
def isRealmName (name : String) : Bool :=
  name ≠ "" && !Kind.client.suffix.toList.isSuffixOf name.toList &&
    !Kind.user.suffix.toList.isSuffixOf name.toList

/-- Refuses the names that a realm may not have. -/
def checkRealmName (name : String) : Except StorageError Unit :=
  if isRealmName name then .ok ()
  else
    .error (.malformed "Realm"
      s!"realm name '{name}' is empty or ends in '{Kind.client.suffix}'/'{Kind.user.suffix}'")

end IdentityStore
