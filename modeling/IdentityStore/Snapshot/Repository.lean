/-
A repository over a snapshot.

Reads are answered from the snapshot, and a change makes a new one that takes its
place; a change that is refused leaves the old one.  A snapshot that was loaded
from a file can be loaded again, which discards all changes; if that fails, the
snapshot stays.
-/
import IdentityStore.Files
import IdentityStore.Operation
import IdentityStore.Snapshot.Change

namespace IdentityStore

namespace Snapshot

/-- The answer to an operation and the snapshot after it. -/
def perform (s : Snapshot) : Operation → Except StorageError (Answer × Snapshot)
  | .getRealm n => return (.realm (← s.getRealm n), s)
  | .getRealmWithMembers n => return (.realm (← s.getRealm n), s)
  | .createRealm payload => do
    let (r, s) ← s.createRealm payload
    return (.realm r, s)
  | .updateRealm n payload => do
    let (r, s) ← s.updateRealm n payload
    return (.realm r, s)
  | .deleteRealm n => return (.done, ← s.deleteRealm n)
  | .get kind n => return (.one kind (← s.get kind.Record n), s)
  | .getFrom kind realm n => return (.one kind (← s.getFrom kind.Record realm n), s)
  | .getUserById realm id => return (.one .user (← s.getUserById realm id), s)
  | .getAllFrom kind realm => return (.many kind (← s.getAllFrom kind.Record realm), s)
  | .create kind payload => do
    let (a, s) ← s.create kind.Record payload
    return (.one kind a, s)
  | .update kind n payload => do
    let (a, s) ← s.update kind.Record n payload
    return (.one kind a, s)
  | .delete kind n => return (.done, ← s.delete kind.Record n)
  | .add kind realm n => return (.done, ← s.add kind.Record realm n)
  | .remove kind realm n => return (.done, ← s.remove kind.Record realm n)

/-- The snapshot in a file. -/
def load (files : Files) (path : String) : Except StorageError Snapshot := do
  let bytes ← (files path).mapError fun e => .unavailable s!"failed to read {path}: {e.message}"
  (Snapshot.ofPayload bytes).mapError (.ofPayload "ServerData")

end Snapshot

/-- A repository that keeps everything in one snapshot. -/
structure SnapshotRepository where
  snapshot : Snapshot
  /-- The file that the snapshot was loaded from. -/
  source : Option String := none

namespace SnapshotRepository

/-- A repository over the snapshot in a file. -/
def load (files : Files) (path : String) : Except StorageError SnapshotRepository := do
  return { snapshot := ← Snapshot.load files path, source := some path }

/-- The answer to an operation and the repository after it. -/
def perform (r : SnapshotRepository) (op : Operation) :
    Except StorageError Answer × SnapshotRepository :=
  match r.snapshot.perform op with
  | .ok (answer, snapshot) => (.ok answer, { r with snapshot })
  | .error e => (.error e, r)

/-- Loads the snapshot again from its file. -/
def reload (files : Files) (r : SnapshotRepository) :
    Except StorageError Unit × SnapshotRepository :=
  match r.source with
  | none => (.error (.internal "snapshot has no source file to reload"), r)
  | some path =>
    match Snapshot.load files path with
    | .ok snapshot => (.ok (), { r with snapshot })
    | .error e => (.error e, r)

end SnapshotRepository

end IdentityStore
