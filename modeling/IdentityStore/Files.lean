/-
Files, as far as they are read: a path leads to bytes or to a reason why not.

A path is taken apart at its slashes.  Empty parts and parts that are one point lead
nowhere, and what is left names the file.
-/
import IdentityStore.Text.Split
import IdentityStore.Text.Utf8

namespace IdentityStore

/-- Why a file cannot be read. -/
inductive FileError where
  | missing
  | isDirectory
  /-- The way to the file leads through something that is no directory. -/
  | notDirectory
  /-- The bytes of the file are no text. -/
  | notText
  deriving DecidableEq, Repr

/-- What is said of the error. -/
def FileError.message : FileError → String
  | .missing => "No such file or directory (os error 2)"
  | .isDirectory => "Is a directory (os error 21)"
  | .notDirectory => "Not a directory (os error 20)"
  | .notText => "stream did not contain valid UTF-8"

/-- The bytes of the files that there are. -/
abbrev Files := (path : String) → Except FileError (List UInt8)

namespace Files

/-- The text in a file. -/
def readText (files : Files) (path : String) : Except FileError String := do
  (Utf8.decode (← files path)).mapError fun _ => .notText

/-! ### Paths -/

/-- The parts of a path that lead somewhere. -/
def parts (path : String) : List (List Char) :=
  (Text.split '/' path.toList).filter fun part => part ≠ [] && part ≠ ['.']

/-- The name of the file that a path leads to; a path that ends by going up has none. -/
def name? (path : String) : Option (List Char) :=
  (parts path).getLast?.filter (· ≠ ['.', '.'])

/-- What follows the last point of the file's name, unless the name begins with it. -/
def extension? (path : String) : Option String := do
  let name ← name? path
  match (Text.split '.' name).reverse with
  | behind :: before :: others =>
    if before = [] ∧ others = [] then none else some (String.ofList behind)
  | _ => none

end Files

end IdentityStore
