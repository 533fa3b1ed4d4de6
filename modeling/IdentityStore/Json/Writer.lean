/-
Writing documents: no blanks, members in their order.
-/
import IdentityStore.Json.Quoted
import IdentityStore.Json.Numeral

namespace IdentityStore.Json

/-- A list of written values. -/
def writeList (items : List String) : String := "[" ++ String.intercalate "," items ++ "]"

/-- An object of names with written values. -/
def writeObject (members : List (String × String)) : String :=
  "\x7b" ++ String.intercalate "," (members.map fun m => writeText m.1 ++ ":" ++ m.2) ++ "\x7d"

/-- A truth value. -/
def writeBoolean (b : Bool) : String := if b then "true" else "false"

/-- A value that may be missing. -/
def writeOption {α : Type} (write : α → String) : Option α → String
  | some a => write a
  | none => "null"

mutual

/-- The text of a document. -/
def Value.write : Value → String
  | .null => "null"
  | .boolean b => writeBoolean b
  | .number n => n.write
  | .text s => writeText s
  | .array items => writeList (writeItems items)
  | .object members => writeObject (writeMembers members)

/-- The texts of the items of a list. -/
def writeItems : List Value → List String
  | [] => []
  | v :: rest => v.write :: writeItems rest

/-- The texts of the members of an object, each with its name. -/
def writeMembers : List (String × Value) → List (String × String)
  | [] => []
  | (name, v) :: rest => (name, v.write) :: writeMembers rest

end

end IdentityStore.Json
