/-
A store in memory that is watched and tampered with.

It keeps the requests that were made of it, and traps that wait for a request of
their kind.  A trap lets some requests pass and springs once: it makes the request
fail, or changes the store just before the request runs, as another writer could.
A request is seen by the oldest trap that waits for it and by no other.
-/
import IdentityStore.Store.Memory

namespace IdentityStore

/-- The kinds of request. -/
inductive Method where
  | get
  | getMany
  | set
  | delete
  | has
  | list
  | setList
  | scan
  deriving DecidableEq, Repr

/-- The kind of a request. -/
def Request.method : Request → Method
  | .get _ => .get
  | .getMany _ => .getMany
  | .set _ _ => .set
  | .delete _ => .delete
  | .has _ => .has
  | .list _ => .list
  | .setList _ _ => .setList
  | .scan _ => .scan

/-- What a trap does when it springs. -/
inductive Tampering where
  | fail (error : StoreError)
  /-- Removes keys and writes texts. -/
  | change (removed : List String) (written : List (String × String))
  deriving DecidableEq, Repr

/-- Something that waits for a request. -/
structure Trap where
  method : Method
  /-- The key that the request has to be about, if only one will do. -/
  key : Option String
  /-- How many requests it still lets pass. -/
  skip : Nat
  tampering : Tampering

namespace Trap

/-- Holds for the requests that a trap waits for. -/
def awaits (t : Trap) (r : Request) : Bool :=
  t.method = r.method && t.key.all r.subjects.contains

/-- What the oldest of some traps that waits for a request does to it, and the traps
that are left. -/
def spring (r : Request) : List Trap → Option Tampering × List Trap
  | [] => (none, [])
  | t :: rest =>
    if t.awaits r then
      match t.skip with
      | 0 => (some t.tampering, rest)
      | n + 1 => (none, { t with skip := n } :: rest)
    else
      let (fired, rest) := spring r rest
      (fired, t :: rest)

end Trap

/-- A store with what has been asked of it and what waits for it. -/
structure WatchedStore where
  memory : MemoryStore := {}
  /-- The requests so far, in their order. -/
  calls : List Request := []
  /-- The traps, the oldest first. -/
  traps : List Trap := []

namespace WatchedStore

/-- Removes keys and writes texts, unless the store is offline. -/
def tamper (m : MemoryStore) (removed : List String) (written : List (String × String)) :
    MemoryStore :=
  written.foldl (fun m w => (m.answer (.set w.1 w.2)).2) (m.answer (.delete removed)).2

/-- The answer of the store and the store after it. -/
def answer (w : WatchedStore) (r : Request) : Except StoreError r.Reply × WatchedStore :=
  let calls := w.calls ++ [r]
  let (fired, traps) := Trap.spring r w.traps
  match fired with
  | some (.fail e) => (.error e, ⟨w.memory, calls, traps⟩)
  | some (.change removed written) =>
    let (reply, memory) := (tamper w.memory removed written).answer r
    (reply, ⟨memory, calls, traps⟩)
  | none =>
    let (reply, memory) := w.memory.answer r
    (reply, ⟨memory, calls, traps⟩)

end WatchedStore

end IdentityStore
