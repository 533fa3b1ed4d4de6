/-
Locks on keys, by mutexes that are shared.

The table has a mutex under every key that is locked or wanted.  Whoever asks for the lock of a
key takes a reference to the mutex under it, or puts a new one there, and then deals with the
mutex and not with the table.  The reference is kept until the guard is dropped, or the request
for it.  Dropping a guard releases the mutex and then takes the entry of its key out of the
table, if the table has the only reference that is left; dropping a request does not look at
the table.

How a mutex hands itself on is its own affair, so that `Mutex` only names what can be done with
one.  `Mutex.queue` is one that keeps a line.
-/
import IdentityStore.Locks

namespace IdentityStore

/-- What can be done with a mutex.  Those who ask for it have numbers. -/
structure Mutex where
  State : Type
  /-- A mutex that nobody has asked for. -/
  unlocked : State
  /-- Asks for the guard, and tells whether it is had at once. -/
  ask : State → Nat → Bool × State
  /-- Asks again, and tells whether the guard is had. -/
  poll : State → Nat → Bool × State
  /-- Gives the guard back. -/
  release : State → State
  /-- Gives up a request that has not led to the guard. -/
  cancel : State → Nat → State

/-- The mutex that is its line: who stands first has the guard or will have it. -/
def Mutex.queue : Mutex where
  State := List Nat
  unlocked := []
  ask line i := (line.isEmpty, line ++ [i])
  poll line i := (line.head? = some i, line)
  release line := line.tail
  cancel line i := line.erase i

/-- One who has asked for the lock of a key, and has not let go of it. -/
structure Contender where
  key : String
  /-- The mutex to which the contender has a reference. -/
  mutex : Nat
  /-- Whether the contender has the guard. -/
  guarded : Bool
  deriving DecidableEq, Repr

/-- The mutexes of keys.  A reference to a mutex is its place among all that were ever made. -/
structure MutexTable (M : Mutex) where
  mutexes : List M.State := []
  /-- The mutex of each key. -/
  table : Std.ExtTreeMap String Nat := ∅
  /-- Those who have asked, in the order of asking, and nothing for those who let go. -/
  contenders : List (Option Contender) := []

/-- What can be done about locks. -/
inductive LockStep where
  /-- Asks for the lock of a key, for the first time. -/
  | lock (key : String)
  /-- Asks again for the one of a number. -/
  | poll (i : Nat)
  /-- Drops the guard of the one of a number, or its request. -/
  | drop (i : Nat)
  deriving DecidableEq, Repr

/-- Where somebody stands who has asked a mutex. -/
def Standing.of (had : Bool) : Standing := if had then .held else .waiting

namespace MutexTable

variable {M : Mutex} (s : MutexTable M)

/-- How many keys have a mutex. -/
def size : Nat := s.table.size

/-- Holds if no key has a mutex. -/
def isEmpty : Bool := s.table.isEmpty

/-- What has become of a mutex. -/
def state (m : Nat) : M.State := s.mutexes[m]?.getD M.unlocked

/-- The one of a number, if it has not let go. -/
def contender? (i : Nat) : Option Contender := s.contenders[i]?.join

/-- How many references to a mutex there are: those of the table and those of contenders. -/
def references (m : Nat) : Nat :=
  s.table.toList.countP (·.2 = m) + s.contenders.countP fun c => c.any (·.mutex = m)

/-- The mutex under a key, a new one if there was none. -/
def enter (key : String) : Nat × MutexTable M :=
  match s.table[key]? with
  | some m => (m, s)
  | none =>
    let m := s.mutexes.length
    (m, { s with mutexes := s.mutexes ++ [M.unlocked], table := s.table.insert key m })

/-- Takes the entry of a key out if it has the only reference to its mutex. -/
def prune (key : String) : MutexTable M :=
  match s.table[key]? with
  | some m => if s.references m = 1 then { s with table := s.table.erase key } else s
  | none => s

/-- Asks for the lock of a key. -/
def lock (key : String) : Standing × MutexTable M :=
  let (m, s) := s.enter key
  let (had, state) := M.ask (s.state m) s.contenders.length
  (.of had, { s with
    mutexes := s.mutexes.set m state
    contenders := s.contenders ++ [some ⟨key, m, had⟩] })

/-- Asks again; nothing for one who has let go. -/
def poll (i : Nat) : Option Standing × MutexTable M :=
  match s.contender? i with
  | none => (none, s)
  | some c =>
    if c.guarded then (some .held, s)
    else
      let (had, state) := M.poll (s.state c.mutex) i
      (some (.of had), { s with
        mutexes := s.mutexes.set c.mutex state
        contenders := s.contenders.set i (some { c with guarded := had }) })

/-- Drops a guard or a request for one. -/
def drop (i : Nat) : MutexTable M :=
  match s.contender? i with
  | none => s
  | some c =>
    let state := if c.guarded then M.release (s.state c.mutex) else M.cancel (s.state c.mutex) i
    let s := { s with
      mutexes := s.mutexes.set c.mutex state
      contenders := s.contenders.set i none }
    if c.guarded then s.prune c.key else s

/-- What somebody is told, and the table after it. -/
def step : LockStep → Option Standing × MutexTable M
  | .lock key =>
    let (standing, s) := s.lock key
    (some standing, s)
  | .poll i => s.poll i
  | .drop i => (none, s.drop i)

/-- The table after some steps. -/
def run (steps : List LockStep) : MutexTable M := steps.foldl (fun s e => (s.step e).2) s

/-- The table after some steps from the beginning. -/
def after (M : Mutex) (steps : List LockStep) : MutexTable M := run {} steps

end MutexTable

end IdentityStore
