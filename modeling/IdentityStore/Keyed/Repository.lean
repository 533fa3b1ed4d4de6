/-
A repository over a keyed store.

Every operation has a plan, and the plan depends on nothing but the keys of the
namespace: two repositories over one store differ in their keys only.
-/
import IdentityStore.Keyed.Change
import IdentityStore.Operation
import IdentityStore.Store.Memory

namespace IdentityStore.Keyed

/-- What an operation does to a store whose keys are `keys`. -/
def plan (keys : KeySpace) : Operation → Plan Answer
  | .getRealm name => return .realm (← getRealm keys name)
  | .getRealmWithMembers name => return .realm (← getRealmWithMembers keys name)
  | .createRealm payload => return .realm (← createRealm keys payload)
  | .updateRealm name payload => return .realm (← updateRealm keys name payload)
  | .deleteRealm name => do
    deleteRealm keys name
    return .done
  | .get kind name => return .one kind (← get keys kind.Record name)
  | .getFrom kind realm name => return .one kind (← getFrom keys kind.Record realm name)
  | .getUserById realm id => return .one .user (← getUserById keys realm id)
  | .getAllFrom kind realm => return .many kind (← getAllFrom keys kind.Record realm)
  | .create kind payload => return .one kind (← create keys kind.Record payload)
  | .update kind name payload => return .one kind (← update keys kind.Record name payload)
  | .delete kind name => do
    delete keys kind name
    return .done
  | .add kind realm name => do
    add keys kind.Record realm name
    return .done
  | .remove kind realm name => do
    remove keys kind realm name
    return .done

/-- The answer to an operation that runs alone on a store that lists its keys in some order,
and the store after it. -/
def performIn (keys : KeySpace) (order : ScanOrder) (s : MemoryStore) (op : Operation) :
    Except StorageError Answer × MemoryStore :=
  (plan keys op).run (MemoryStore.answerIn order) s

end IdentityStore.Keyed
