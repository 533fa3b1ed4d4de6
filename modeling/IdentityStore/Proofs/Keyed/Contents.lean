/-
What a membership key holds in any store, and how operations change it.

Older programs left lists of many entries, and anything else may lie where a list should.
So a key holds the members that its entries come to, or nothing that is a list of members.
Every change of a list is one of four: a member is put in, a name is taken out, the list is
set to the members of a new realm, or it goes with its realm.
-/
import IdentityStore.Keyed.Repository
import IdentityStore.Proofs.Membership
import IdentityStore.Proofs.Store.Answer

namespace IdentityStore

namespace Membership

/-- A change that an operation makes to a list of members. -/
inductive Edit where
  | upsert (member : Member)
  | without (name : String)
  | reset (members : List Member)
  deriving DecidableEq

/-- The members after a change. -/
def Edit.apply : Edit → List Member → List Member
  | .upsert member, ms => Membership.upsert member ms
  | .without name, ms => Membership.without name ms
  | .reset members, _ => members

/-- The names that a change may bring into a list. -/
def Edit.brings : Edit → List String
  | .upsert member => [member.name]
  | .without _ => []
  | .reset members => names members

/-- A change brings in no other names than its own. -/
theorem Edit.names_apply {edit : Edit} {ms : List Member} {n : String}
    (h : n ∈ names (edit.apply ms)) : n ∈ edit.brings ∨ n ∈ names ms := by
  cases edit with
  | upsert member =>
      obtain ⟨m, hm, rfl⟩ := List.mem_map.mp h
      rcases mem_upsert hm with rfl | hm
      · exact .inl (List.mem_singleton.mpr rfl)
      · exact .inr (List.mem_map_of_mem hm)
  | without name =>
      obtain ⟨m, hm, rfl⟩ := List.mem_map.mp h
      exact .inr (List.mem_map_of_mem (mem_without.mp hm).1)
  | reset members => exact .inl h

end Membership

namespace Keyed

open IdentityStore.Membership (Edit names)

variable {s s' : MemoryStore} {key : String} {ms : List Member}

/-- The members that a store holds under a key, if what lies there is a list of members. -/
def contents (s : MemoryStore) (key : String) : Option (List Member) :=
  match s.list? key with
  | .ok entries => (Membership.ofEntries entries).toOption
  | .error _ => none

/-- The names of the members that a store holds under a key. -/
def listed (s : MemoryStore) (key : String) : List String := names ((contents s key).getD [])

theorem contents_congr (h : s'.entries[key]? = s.entries[key]?) :
    contents s' key = contents s key := by
  rw [contents, contents, MemoryStore.list?, MemoryStore.list?, h]

theorem listed_congr (h : s'.entries[key]? = s.entries[key]?) : listed s' key = listed s key := by
  rw [listed, listed, contents_congr h]

theorem listed_of_contents (h : contents s key = some ms) : listed s key = names ms := by
  rw [listed, h]
  rfl

theorem contents_of_list {entries : List String} (h : s.list? key = .ok entries)
    (hms : Membership.ofEntries entries = .ok ms) : contents s key = some ms := by
  rw [contents, h]
  dsimp only
  rw [hms]
  rfl

theorem contents_of_none (h : s.entries[key]? = none) : contents s key = some [] := by
  have hlist : s.list? key = .ok [] := by rw [MemoryStore.list?, h]
  exact contents_of_list hlist rfl

theorem nodup_contents (h : contents s key = some ms) : (names ms).Nodup := by
  unfold contents at h
  split at h
  · rename_i entries _
    rcases hms : Membership.ofEntries entries with fault | ms'
    · rw [hms] at h
      cases h
    · rw [hms] at h
      cases h
      exact Membership.nodup_ofEntries hms
  · cases h

/-- Members of different names are read as they were written. -/
theorem contents_of_entry (h : s.entries[key]? = some (.list (Membership.toEntries ms)))
    (hms : (names ms).Nodup) : contents s key = some ms :=
  contents_of_list (by rw [MemoryStore.list?, h]; rfl)
    (Membership.ofEntries_singleton (Member.readEntry_writeEntry ms) hms)

/-- Under a key that lists a name there is a list. -/
theorem isSome_of_listed {n : String} (h : n ∈ listed s key) : (s.entries[key]?).isSome := by
  rw [Option.isSome_iff_ne_none]
  intro hnone
  rw [listed_of_contents (contents_of_none hnone)] at h
  cases h

end Keyed

end IdentityStore
