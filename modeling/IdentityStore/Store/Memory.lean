/-
A store that lives in memory.

The store is a finite map from keys to texts and lists, in which two stores that
answer every look-up alike are equal.  While it is offline every request fails and
nothing changes.

In what order the keys of a pattern are listed, and whether a key is listed only
once, is nothing that the store promises.  So the order is a parameter of its
answers; `answer` is that of a store that lists keys in rising order.
-/
import IdentityStore.Store.Error
import IdentityStore.Store.Glob
import IdentityStore.Store.Request
import Std.Data.ExtTreeMap

namespace IdentityStore

/-- What a key holds. -/
inductive Entry where
  | text (value : String)
  | list (entries : List String)
  deriving DecidableEq, Repr

/-- How the keys of a pattern are listed, given all keys of a store in rising order. -/
structure ScanOrder where
  arrange : List String → String → List String
  mem_arrange : ∀ {all : List String} {pattern key : String},
    key ∈ arrange all pattern ↔ key ∈ all ∧ Glob.isMatch pattern key = true

/-- Every key once, in rising order. -/
def ScanOrder.rising : ScanOrder where
  arrange all pattern := all.filter (Glob.isMatch pattern)
  mem_arrange := List.mem_filter

/-- A store in memory. -/
structure MemoryStore where
  entries : Std.ExtTreeMap String Entry := ∅
  online : Bool := true

namespace MemoryStore

/-- A store without keys. -/
def empty : MemoryStore := {}

/-- How many keys there are. -/
def size (s : MemoryStore) : Nat := s.entries.size

/-- Holds for the store without keys. -/
def isEmpty (s : MemoryStore) : Bool := s.entries.isEmpty

/-- The keys in rising order. -/
def keys (s : MemoryStore) : List String := s.entries.keys

/-- The text under a key; a list is an error. -/
def text? (s : MemoryStore) (key : String) : Except StoreError (Option String) :=
  match s.entries[key]? with
  | none => .ok none
  | some (.text value) => .ok (some value)
  | some (.list _) => .error (.wrongType key)

/-- The text under a key, nothing if it holds a list. -/
def textOrNone (s : MemoryStore) (key : String) : Option String :=
  match s.entries[key]? with
  | some (.text value) => some value
  | _ => none

/-- The list under a key, empty if there is none; a text is an error. -/
def list? (s : MemoryStore) (key : String) : Except StoreError (List String) :=
  match s.entries[key]? with
  | none => .ok []
  | some (.list entries) => .ok entries
  | some (.text _) => .error (.wrongType key)

/-- Changes what the store holds. -/
def update (s : MemoryStore)
    (f : Std.ExtTreeMap String Entry → Std.ExtTreeMap String Entry) : MemoryStore :=
  { s with entries := f s.entries }

/-- Removes one key after the other and counts those that were there. -/
def deleteAll (s : MemoryStore) : List String → Nat × MemoryStore
  | [] => (0, s)
  | key :: rest =>
    let found := s.entries.contains key
    let (count, s) := deleteAll (s.update (·.erase key)) rest
    (if found then count + 1 else count, s)

/-- The list under a key after it was replaced. -/
def putList (s : MemoryStore) (key : String) (entries : List String) : MemoryStore :=
  s.update fun m => if entries = [] then m.erase key else m.insert key (.list entries)

/-- The answer of an online store and the store after it. -/
def answerOnline (order : ScanOrder) (s : MemoryStore) :
    (r : Request) → Except StoreError r.Reply × MemoryStore
  | .get key => (s.text? key, s)
  | .getMany keys => (.ok (keys.map s.textOrNone), s)
  | .set key value => (.ok (), s.update (·.insert key (.text value)))
  | .delete keys =>
    let (count, s) := s.deleteAll keys
    (.ok count, s)
  | .has key => (.ok (s.entries.contains key), s)
  | .list key => (s.list? key, s)
  | .setList key entries => (.ok (), s.putList key entries)
  | .scan pattern => (.ok (order.arrange s.keys pattern), s)

/-- The error of a store that is offline. -/
def offlineError : StoreError := .connection "store is offline"

/-- The answer of a store that lists keys in a given order, and the store after it. -/
def answerIn (order : ScanOrder) (s : MemoryStore) (r : Request) :
    Except StoreError r.Reply × MemoryStore :=
  if s.online then s.answerOnline order r else (.error offlineError, s)

/-- The answer of a store that lists keys in rising order, and the store after it. -/
def answer (s : MemoryStore) (r : Request) : Except StoreError r.Reply × MemoryStore :=
  s.answerIn .rising r

/-- Puts one more entry at the end of a list, as writers did that did not know what
the list held. -/
def push (s : MemoryStore) (key entry : String) : Except StoreError MemoryStore :=
  if s.online then do
    let entries ← s.list? key
    return s.update (·.insert key (.list (entries ++ [entry])))
  else .error offlineError

/-- Everything the store holds, in rising order of the keys. -/
def toList (s : MemoryStore) : List (String × Entry) := s.entries.toList

end MemoryStore

end IdentityStore
