/-
Locks on keys, handed out in the order of asking.

Whoever wants a lock joins the line of its key.  The lock belongs to the head of
the line at all times; the head that has been told so has the guard.  When the head
leaves, the next in line owns the lock at once, before anybody else can ask.

A line leaves the table when a guard is given back and nobody else stands in it.  A
head that leaves without having been told that it owns the lock takes no line away,
even if it was the last; the line stays until the next guard of its key comes back.
-/
import Std.Data.ExtTreeMap

namespace IdentityStore

/-- Those who want the lock of one key, the owner first. -/
structure Line (ι : Type) where
  queue : List ι
  /-- Whether the owner has the guard. -/
  guarded : Bool
  deriving DecidableEq, Repr

/-- The lines of all keys that are locked or wanted. -/
structure LockTable (ι : Type) where
  lines : Std.ExtTreeMap String (Line ι) := ∅

/-- Where somebody stands who has asked for a lock. -/
inductive Standing where
  | held
  | waiting
  deriving DecidableEq, Repr

namespace LockTable

variable {ι : Type}

/-- The table without lines. -/
def empty : LockTable ι := {}

/-- How many keys are locked or wanted. -/
def size (t : LockTable ι) : Nat := t.lines.size

/-- Holds for the table without lines. -/
def isEmpty (t : LockTable ι) : Bool := t.lines.isEmpty

/-- The line of a key, empty if there is none. -/
def line (t : LockTable ι) (key : String) : Line ι := t.lines[key]?.getD ⟨[], false⟩

/-- Puts a line under its key. -/
def put (t : LockTable ι) (key : String) (l : Line ι) : LockTable ι := ⟨t.lines.insert key l⟩

/-- Asks for the lock of a key. -/
def lock (t : LockTable ι) (key : String) (i : ι) : Standing × LockTable ι :=
  let l := t.line key
  match l.queue with
  | [] => (.held, t.put key ⟨[i], true⟩)
  | queue => (.waiting, t.put key ⟨queue ++ [i], l.guarded⟩)

variable [DecidableEq ι]

/-- Asks again; nothing for one who does not stand in the line. -/
def poll (t : LockTable ι) (key : String) (i : ι) : Option Standing × LockTable ι :=
  let l := t.line key
  match l.queue with
  | [] => (none, t)
  | owner :: rest =>
    if owner = i then (some .held, t.put key ⟨owner :: rest, true⟩)
    else if i ∈ rest then (some .waiting, t)
    else (none, t)

/-- Leaves the line of a key, giving the guard back or giving up waiting. -/
def leave (t : LockTable ι) (key : String) (i : ι) : LockTable ι :=
  let l := t.line key
  match l.queue with
  | [] => t
  | owner :: rest =>
    if owner = i then
      if l.guarded ∧ rest = [] then ⟨t.lines.erase key⟩ else t.put key ⟨rest, false⟩
    else t.put key ⟨owner :: rest.erase i, l.guarded⟩

end LockTable

end IdentityStore
