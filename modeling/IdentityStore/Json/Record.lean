/-
Records with named fields.

A record is written as an object of its fields in any order, or as a list of them
in the order of declaration.  While it is read, what is known of it is a draft.  A
field may be given once; unknown names are passed over; what is missing at the end
is filled in by the record itself or reported, in the order of declaration.
-/
import IdentityStore.Json.Reader

namespace IdentityStore.Json

/-- A field of a record whose drafts are of type `δ`. -/
structure Field (δ : Type) where
  name : String
  /-- Another name that is taken for the field. -/
  otherName : Option String := none
  /-- Whether a draft has the field already. -/
  given : δ → Bool
  /-- Reads the field into a draft, given the levels left. -/
  read : (levels : Nat) → δ → Reader δ

/-- A kind of record: how its drafts are read and what comes of them. -/
structure Record (δ α : Type) where
  /-- The name of the record in messages. -/
  title : String
  fields : List (Field δ)
  /-- What is known before anything is read. -/
  blank : δ
  /-- Fills in what may be missing and reports what may not. -/
  finish : Lack → δ → Except Fault α

namespace Field

/-- A field that is read by `read` and kept by `set`. -/
def of {δ β : Type} (name : String) (get : δ → Option β) (set : β → δ → δ)
    (read : Nat → Reader β) : Field δ where
  name := name
  given d := (get d).isSome
  read levels d := fun s => (read levels s).map fun b => (set b.1 d, b.2)

/-- Holds for the names of a field. -/
def answersTo {δ : Type} (f : Field δ) (name : String) : Bool :=
  f.name = name || f.otherName = some name

end Field

namespace Record

variable {δ α : Type} (r : Record δ α)

/-- A field that an object lacks. -/
def lackOfMember : Lack := fun _ name => .missingField name

/-- A field that a list ends without. -/
def lackOfItem : Lack := fun index _ => .wrongLength index r.title r.fields.length

/-- Reads one member of the object form into the draft. -/
def readMember (levels : Nat) (name : String) (d : δ) : Reader δ := fun s =>
  match r.fields.find? (·.answersTo name) with
  | none => do
    let s ← readColon s
    return (d, ← skipValue s)
  | some f =>
    if f.given d then .error (.duplicateField f.name)
    else do
      let s ← readColon s
      f.read levels d s

/-- Reads the list form into the draft, field by field, until the list ends. -/
def readItems {δ : Type} (levels : Nat) : List (Field δ) → (first : Bool) → δ → Reader δ
  | [], _, d, s => .ok (d, s)
  | f :: fs, first, d, s => do
    match ← nextItem? first s with
    | none => return (d, s)
    | some s =>
      let (d, s) ← f.read levels d s
      readItems levels fs false d s

/-- Reads a record in either form. -/
def read (levels : Nat) : Reader α := fun s =>
  match skipBlank s with
  | [] => .error .endOfValue
  | b :: rest =>
    if b = openBrace then
      match levels with
      | 0 => .error .nesting
      | inner + 1 => do
        let (d, s) ← membersOf (r.readMember inner) r.blank rest
        return (← r.finish lackOfMember d, s)
    else if b = openBracket then
      match levels with
      | 0 => .error .nesting
      | inner + 1 => do
        let (d, s) ← readItems inner r.fields true r.blank rest
        let a ← r.finish r.lackOfItem d
        return (a, ← endList s)
    else .error (mismatch s!"struct {r.title}" s)

end Record

end IdentityStore.Json
