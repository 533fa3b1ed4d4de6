/-
Plans that are followed side by side.

A crew is a store, a table of locks, and workers that each follow a plan.  One step
lets one worker make one request, or ask once for a lock, or give one back, and the
steps may come in any order.  A worker may also be sent away at any time; it then
gives back the locks it holds and leaves the line it stands in.
-/
import IdentityStore.Locks
import IdentityStore.Plan

namespace IdentityStore

/-- One who follows a plan. -/
structure Worker (α : Type) where
  /-- What is left to do; nothing once the worker has been sent away. -/
  plan : Option (Plan α)
  /-- The keys whose locks the worker holds, the latest first. -/
  held : List String := []
  /-- Whether the worker stands in the line of the lock it wants next. -/
  waiting : Bool := false

namespace Worker

variable {α : Type}

/-- What has come of the plan, if it is done. -/
def result? (w : Worker α) : Option (Except StorageError α) :=
  match w.plan with
  | some (.done result) => some result
  | _ => none

/-- Holds once there is nothing left to do. -/
def isFinished (w : Worker α) : Bool := w.plan.isNone || w.result?.isSome

end Worker

/-- Workers that share a store and the locks of its keys.  A worker is known by its
place in the list. -/
structure Crew (σ α : Type) where
  store : σ
  locks : LockTable Nat := {}
  workers : List (Worker α)

namespace Crew

variable {σ α : Type}

/-- A crew whose workers begin to follow some plans. -/
def start (store : σ) (plans : List (Plan α)) : Crew σ α :=
  { store, workers := plans.map fun p => { plan := some p } }

/-- Lets the worker at a place take one step. -/
def step (answer : Plan.Answering σ) (c : Crew σ α) (i : Nat) : Crew σ α :=
  match c.workers[i]? with
  | none => c
  | some w =>
    match w.plan with
    | none | some (.done _) => c
    | some (.call r next) =>
      let (reply, store) := answer c.store r
      { c with store, workers := c.workers.set i { w with plan := some (next reply) } }
    | some (.acquire key next) =>
      let (standing, locks) :=
        if w.waiting then c.locks.poll key i
        else
          let (standing, locks) := c.locks.lock key i
          (some standing, locks)
      let w : Worker α :=
        if standing = some .held then ⟨some next, key :: w.held, false⟩
        else { w with waiting := true }
      { c with locks, workers := c.workers.set i w }
    | some (.release key next) =>
      let w : Worker α := { w with plan := some next, held := w.held.erase key }
      { c with locks := c.locks.leave key i, workers := c.workers.set i w }

/-- Sends the worker at a place away. -/
def dismiss (c : Crew σ α) (i : Nat) : Crew σ α :=
  match c.workers[i]? with
  | none => c
  | some w =>
    let wanted :=
      match w.plan with
      | some (.acquire key _) => if w.waiting then [key] else []
      | _ => []
    let locks := (wanted ++ w.held).foldl (fun locks key => locks.leave key i) c.locks
    { c with locks, workers := c.workers.set i { plan := none } }

/-- Lets every worker take one step, in their order. -/
def round (answer : Plan.Answering σ) (c : Crew σ α) : Crew σ α :=
  (List.range c.workers.length).foldl (step answer) c

/-- Holds once no worker has anything left to do. -/
def isFinished (c : Crew σ α) : Bool := c.workers.all Worker.isFinished

end Crew

end IdentityStore
