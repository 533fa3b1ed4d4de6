/-
What requests do to the keys of a store in memory.

A store is known by what it holds under each key, so every change is described by one
equation for all keys.
-/
import IdentityStore.Store.Memory
import Mathlib.Data.List.Sort
import Mathlib.Tactic.Common

namespace IdentityStore.MemoryStore

variable (s : MemoryStore)

/-- The store after a key was given an entry. -/
def put (key : String) (entry : Entry) : MemoryStore := s.update (·.insert key entry)

/-- The store after some keys were removed. -/
def drop (keys : List String) : MemoryStore := (s.deleteAll keys).2

theorem getElem?_put (key : String) (entry : Entry) (k : String) :
    (s.put key entry).entries[k]? = if key = k then some entry else s.entries[k]? := by
  show (s.entries.insert key entry)[k]? = _
  rw [Std.ExtTreeMap.getElem?_insert]
  simp only [Std.LawfulEqCmp.compare_eq_iff_eq]

@[simp] theorem list?_put (key : String) (entries : List String) :
    (s.put key (.list entries)).list? key = .ok entries := by
  rw [list?, getElem?_put, if_pos rfl]

theorem getElem?_drop (keys : List String) (k : String) :
    (s.drop keys).entries[k]? = if k ∈ keys then none else s.entries[k]? := by
  induction keys generalizing s with
  | nil => rfl
  | cons key rest ih =>
      show ((s.update (·.erase key)).drop rest).entries[k]? = _
      rw [ih]
      show (if k ∈ rest then none else (s.entries.erase key)[k]?) = _
      rw [Std.ExtTreeMap.getElem?_erase]
      simp only [Std.LawfulEqCmp.compare_eq_iff_eq, List.mem_cons, eq_comm (a := k)]
      split_ifs with h1 h2 h3 h4 <;> first | rfl | (exfalso; tauto)

@[simp] theorem online_put (key : String) (entry : Entry) : (s.put key entry).online = s.online :=
  rfl

@[simp] theorem online_drop (keys : List String) : (s.drop keys).online = s.online := by
  induction keys generalizing s with
  | nil => rfl
  | cons key rest ih => exact ih (s.update (·.erase key))

theorem mem_keys {k : String} : k ∈ s.keys ↔ ∃ e, s.entries[k]? = some e := by
  rw [keys, Std.ExtTreeMap.mem_keys, ← Std.ExtTreeMap.isSome_getElem?_iff_mem,
    Option.isSome_iff_exists]

theorem getElem?_of_not_mem_keys {k : String} (h : k ∉ s.keys) : s.entries[k]? = none := by
  rw [mem_keys, ← Option.isSome_iff_exists] at h
  exact Option.not_isSome_iff_eq_none.mp h

@[simp] theorem getElem?_empty (k : String) : empty.entries[k]? = none := rfl

/-! ### Stores that are alike -/

variable {s} {s' : MemoryStore}

/-- Stores that hold the same under every key are the same. -/
theorem eq_of_getElem? (honline : s.online = s'.online)
    (h : ∀ k : String, s.entries[k]? = s'.entries[k]?) : s = s' := by
  obtain ⟨entries, online⟩ := s
  obtain ⟨entries', online'⟩ := s'
  obtain rfl : online = online' := honline
  exact congrArg (MemoryStore.mk · online) (Std.ExtTreeMap.ext_getElem? h)

/-- A key that is given the entry it has stays as it is. -/
theorem put_eq_self {key : String} {entry : Entry} (h : s.entries[key]? = some entry) :
    s.put key entry = s := by
  refine eq_of_getElem? rfl fun k => ?_
  rw [getElem?_put]
  split_ifs with hkey
  · rw [← hkey, h]
  · rfl

/-- Stores with the same keys list them alike. -/
theorem keys_eq_of_isSome (h : ∀ k : String, (s'.entries[k]?).isSome = (s.entries[k]?).isSome) :
    s'.keys = s.keys := by
  have hirrefl : Std.Irrefl fun a b : String => compare a b = .lt :=
    ⟨fun a ha => by simp at ha⟩
  have hanti : Std.Antisymm fun a b : String => compare a b = .lt := by
    refine ⟨fun a b hab hba => ?_⟩
    rw [Std.OrientedCmp.gt_of_lt hab] at hba
    cases hba
  refine List.Pairwise.eq_of_mem_iff (r := fun a b : String => compare a b = .lt)
    Std.ExtTreeMap.ordered_keys Std.ExtTreeMap.ordered_keys fun k => ?_
  show k ∈ s'.keys ↔ k ∈ s.keys
  rw [mem_keys, mem_keys, ← Option.isSome_iff_exists, ← Option.isSome_iff_exists, h]

/-- A key that is there already is not listed anew. -/
theorem keys_put {key : String} (h : (s.entries[key]?).isSome) (entry : Entry) :
    (s.put key entry).keys = s.keys := by
  refine keys_eq_of_isSome fun k => ?_
  rw [getElem?_put]
  split_ifs with hkey
  · simp [← hkey, h]
  · rfl

end IdentityStore.MemoryStore
