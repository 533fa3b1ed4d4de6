/-
Variables of the environment.

A file of assignments adds to the variables that are set already and replaces none:
what is set first counts, be it outside the file or further up in it.  A line that
says nothing sensible ends the reading, and what was read before it stays.
-/
import IdentityStore.Environment.Assignment
import IdentityStore.Environment.Line

namespace IdentityStore

/-- Variables with their values. -/
structure Environment where
  entries : List (String × String) := []
  deriving DecidableEq, Repr

namespace Environment

/-- The value of a variable that is set. -/
def look? (e : Environment) (name : String) : Option String := e.entries.lookup name

/-- Sets a variable, unless it is set already. -/
def add (name value : String) (e : Environment) : Environment :=
  if (e.look? name).isSome then e else ⟨e.entries ++ [(name, value)]⟩

/-- Adds what some lines assign, up to the first that makes no sense. -/
def addLines : List (Option (List Char)) → Environment → Environment
  | [], e => e
  | line :: rest, e =>
    match line.bind (readStatement? e.look?) with
    | none => e
    | some .nothing => addLines rest e
    | some (.assign name value) => addLines rest (e.add name value)

/-- Adds what a file assigns. -/
def addFile (bytes : List UInt8) (e : Environment) : Environment := addLines (lines bytes) e

/-- What is set already stays as it is. -/
theorem look?_add_of_isSome {e : Environment} {name : String} (other value : String)
    (h : (e.look? name).isSome) : (e.add other value).look? name = e.look? name := by
  unfold add
  split
  · rfl
  · obtain ⟨v, hv⟩ := Option.isSome_iff_exists.mp h
    have key : (e.entries ++ [(other, value)]).lookup name = some v := by
      rw [List.lookup_append, show e.entries.lookup name = some v from hv]
      rfl
    rw [hv]
    exact key

end Environment

end IdentityStore
