/-
Membership lists.

The list under a membership key holds entries, and each entry spells members.
Today's writers keep one entry with all members; older ones added an entry for
every change, so that a reader has to take the entries together.  A name counts
once: it keeps the place where it first occurs and has the identifier that it is
last given.
-/
import IdentityStore.Member

namespace IdentityStore.Membership

/-- Puts a member in the place of the one of its name, or at the end. -/
def upsert (member : Member) : List Member → List Member
  | [] => [member]
  | m :: rest => if m.name = member.name then member :: rest else m :: upsert member rest

/-- Takes the member of a name out. -/
def without (name : String) (members : List Member) : List Member :=
  members.filter fun m => m.name ≠ name

/-- The members that a run of members comes to, one of each name. -/
def collapse (run : List Member) : List Member := run.foldl (fun ms m => upsert m ms) []

/-- The members that entries spell together, or the fault of the first entry that
spells none. -/
def ofEntries (entries : List String) : Except Fault (List Member) := do
  let batches ← entries.mapM Member.readEntry
  return collapse batches.flatten

/-- The entries that spell members: a single one. -/
def toEntries (members : List Member) : List String := [Member.writeEntry members]

end IdentityStore.Membership
