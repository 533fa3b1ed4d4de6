/-
Plans that take the entries of a list together.

Programs of old added an entry to a list for every change, and a list of many entries says the
same as the one entry that spells what they come to.  `compact` writes every list of a store
in that one entry, where its entries can be read.

A plan that asks for the entries of a list only to take them together cannot tell a store from
its compact form: `Gathers` says so of a plan, request by request, and `Gathers.run_eq` follows
two stores of one compact form side by side.  Such stores hold the same keys, so that a scan
finds the same in both; and what is put in the place of a list is the same in both, since it is
made of what the entries come to.
-/
import IdentityStore.Proofs.Membership
import IdentityStore.Proofs.Plan.Within

namespace IdentityStore

/-! ### Lists in their compact form -/

namespace Membership

/-- The one entry that spells what entries come to, or the entries themselves if one of them
cannot be read. -/
def compact (entries : List String) : List String :=
  match ofEntries entries with
  | .ok ms => toEntries ms
  | .error _ => entries

theorem ofEntries_toEntries {ms : List Member} (h : (names ms).Nodup) :
    ofEntries (toEntries ms) = .ok ms :=
  ofEntries_singleton (Member.readEntry_writeEntry ms) h

/-- The compact form comes to the same members, and fails to be read alike. -/
@[simp] theorem ofEntries_compact (entries : List String) :
    ofEntries (compact entries) = ofEntries entries := by
  unfold compact
  split
  · rename_i ms hms
    rw [hms, ofEntries_toEntries (nodup_ofEntries hms)]
  · rfl

theorem ofEntries_eq_of_compact_eq {entries entries' : List String}
    (h : compact entries = compact entries') : ofEntries entries = ofEntries entries' := by
  rw [← ofEntries_compact entries, h, ofEntries_compact]

end Membership

/-- What lies under a key, a list in its compact form. -/
def Entry.compact : Entry → Entry
  | .text value => .text value
  | .list entries => .list (Membership.compact entries)

namespace MemoryStore

section

variable (L : String → Prop) [DecidablePred L]

/-- What lies under a key, in its compact form if the key is one of lists. -/
def compactAt (key : String) (e : Entry) : Entry := if L key then e.compact else e

/-- The store with the lists under some keys in their compact form. -/
def compact (s : MemoryStore) : MemoryStore := s.update (·.map (compactAt L))

end

variable {L : String → Prop} [DecidablePred L] {s s' : MemoryStore} {key : String}

theorem getElem?_compact (s : MemoryStore) (key : String) :
    (s.compact L).entries[key]? = (s.entries[key]?).map (compactAt L key) :=
  Std.ExtTreeMap.getElem?_map

/-- A store in its compact form stays as it is. -/
theorem compact_compact (s : MemoryStore) : (s.compact L).compact L = s.compact L := by
  refine eq_of_getElem? rfl fun key => ?_
  rw [getElem?_compact, getElem?_compact, Option.map_map]
  congr 1
  funext e
  by_cases hkey : L key
  · simp only [Function.comp_apply, compactAt, if_pos hkey]
    cases e with
    | text value => rfl
    | list entries =>
        refine congrArg Entry.list ?_
        rw [Membership.compact, Membership.ofEntries_compact]
        unfold Membership.compact
        split <;> rfl
  · simp only [Function.comp_apply, compactAt, if_neg hkey]

/-! ### Stores of one compact form -/

section

variable (h : s'.compact L = s.compact L)

include h

theorem online_of_compact_eq : s'.online = s.online :=
  show (s'.compact L).online = (s.compact L).online from congrArg MemoryStore.online h

theorem map_of_compact_eq (key : String) :
    (s'.entries[key]?).map (compactAt L key) = (s.entries[key]?).map (compactAt L key) := by
  rw [← getElem?_compact, h, getElem?_compact]

theorem contains_of_compact_eq (key : String) :
    s'.entries.contains key = s.entries.contains key := by
  have hmap := congrArg Option.isSome (map_of_compact_eq h key)
  rw [Option.isSome_map, Option.isSome_map] at hmap
  rw [Std.ExtTreeMap.contains_eq_isSome_getElem?, Std.ExtTreeMap.contains_eq_isSome_getElem?, hmap]

/-- Under keys that are none of lists there is the same. -/
theorem entry_of_compact_eq (hkey : ¬ L key) : s'.entries[key]? = s.entries[key]? := by
  have hmap := map_of_compact_eq h key
  have hid : compactAt L key = id := funext fun e => if_neg hkey
  rwa [hid, Option.map_id, id, id] at hmap

/-- The lists under a key come to the same. -/
theorem list_of_compact_eq (key : String) :
    (s'.list? key).map Membership.ofEntries = (s.list? key).map Membership.ofEntries := by
  by_cases hkey : L key
  · have hmap := map_of_compact_eq h key
    rw [show compactAt L key = Entry.compact from funext fun e => if_pos hkey] at hmap
    unfold list?
    cases hs' : s'.entries[key]? with
    | none =>
        rw [hs', Option.map_none, eq_comm, Option.map_eq_none_iff] at hmap
        rw [hmap]
    | some e' =>
        rw [hs', Option.map_some, eq_comm, Option.map_eq_some_iff] at hmap
        obtain ⟨e, hs, he⟩ := hmap
        rw [hs]
        cases e with
        | text value => cases e' <;> cases he; rfl
        | list entries =>
            cases e' with
            | text value' => cases he
            | list entries' =>
                have hentries := Membership.ofEntries_eq_of_compact_eq (Entry.list.inj he)
                exact congrArg Except.ok hentries.symm
  · rw [list?, list?, entry_of_compact_eq h hkey]

end

end MemoryStore

/-! ### Requests -/

namespace Request

/-- The request reads the texts of no keys of lists. -/
def Spares (L : String → Prop) : Request → Prop
  | .get key => ¬ L key
  | .getMany keys => ∀ key ∈ keys, ¬ L key
  | _ => True

/-- Replies that say the same, lists being taken for what they come to. -/
def SameReply : (r : Request) → (a b : Except StoreError r.Reply) → Prop
  | .list _, a, b => a.map Membership.ofEntries = b.map Membership.ofEntries
  | _, a, b => a = b

theorem SameReply.refl (r : Request) (a : Except StoreError r.Reply) : r.SameReply a a := by
  cases r <;> rfl

end Request

namespace MemoryStore

variable {L : String → Prop} [DecidablePred L] {s s' : MemoryStore}

theorem compact_put (h : s'.compact L = s.compact L) (key : String) (e : Entry) :
    (s'.put key e).compact L = (s.put key e).compact L := by
  refine eq_of_getElem? (show s'.online = s.online from online_of_compact_eq h) fun k => ?_
  rw [getElem?_compact, getElem?_compact, getElem?_put, getElem?_put]
  split_ifs
  · rfl
  · exact map_of_compact_eq h k

theorem compact_drop (h : s'.compact L = s.compact L) (keys : List String) :
    (s'.drop keys).compact L = (s.drop keys).compact L := by
  refine eq_of_getElem? ?_ fun k => ?_
  · show (s'.drop keys).online = (s.drop keys).online
    rw [online_drop, online_drop, online_of_compact_eq h]
  · rw [getElem?_compact, getElem?_compact, getElem?_drop, getElem?_drop]
    split_ifs
    · rfl
    · exact map_of_compact_eq h k

theorem compact_putList (h : s'.compact L = s.compact L) (key : String) (entries : List String) :
    (s'.putList key entries).compact L = (s.putList key entries).compact L := by
  refine eq_of_getElem? (show s'.online = s.online from online_of_compact_eq h) fun k => ?_
  rw [getElem?_compact, getElem?_compact, getElem?_putList, getElem?_putList]
  split_ifs
  · rfl
  · rfl
  · exact map_of_compact_eq h k

/-- As many keys are removed from both. -/
theorem deleteAll_of_compact_eq (h : s'.compact L = s.compact L) (keys : List String) :
    (s'.deleteAll keys).1 = (s.deleteAll keys).1 := by
  induction keys generalizing s s' with
  | nil => rfl
  | cons key rest ih =>
      have hcount := ih (compact_drop h [key])
      show (if s'.entries.contains key then ((s'.drop [key]).deleteAll rest).1 + 1
        else ((s'.drop [key]).deleteAll rest).1) = _
      rw [hcount, contains_of_compact_eq h]
      rfl

/-- The same keys are listed. -/
theorem keys_of_compact_eq (h : s'.compact L = s.compact L) : s'.keys = s.keys := by
  refine keys_eq_of_isSome fun key => ?_
  rw [← Std.ExtTreeMap.contains_eq_isSome_getElem?, ← Std.ExtTreeMap.contains_eq_isSome_getElem?,
    contains_of_compact_eq h]

/-- A request that reads no list as a text is answered the same, and leaves stores of one
compact form. -/
theorem answerIn_of_compact_eq (order : ScanOrder) (h : s'.compact L = s.compact L) {r : Request}
    (hr : r.Spares L) :
    r.SameReply (s'.answerIn order r).1 (s.answerIn order r).1 ∧
      (s'.answerIn order r).2.compact L = (s.answerIn order r).2.compact L := by
  by_cases hon : s.online = true
  swap
  · have hon' : s'.online ≠ true := fun hon' => hon ((online_of_compact_eq h).symm.trans hon')
    rw [answerIn_offline hon, answerIn_offline hon']
    exact ⟨.refl r _, h⟩
  have hon' : s'.online = true := (online_of_compact_eq h).trans hon
  cases r with
  | get key =>
      simp only [answerIn_get hon, answerIn_get hon', text?, entry_of_compact_eq h hr]
      exact ⟨rfl, h⟩
  | getMany keys =>
      simp only [answerIn_getMany hon, answerIn_getMany hon']
      refine ⟨congrArg Except.ok (List.map_congr_left fun key hkey => ?_), h⟩
      simp only [textOrNone, entry_of_compact_eq h (hr key hkey)]
  | has key =>
      simp only [answerIn_has hon, answerIn_has hon', contains_of_compact_eq h]
      exact ⟨rfl, h⟩
  | list key =>
      simp only [answerIn_list hon, answerIn_list hon']
      exact ⟨list_of_compact_eq h key, h⟩
  | scan pattern =>
      simp only [answerIn_scan hon, answerIn_scan hon', keys_of_compact_eq h]
      exact ⟨rfl, h⟩
  | set key value =>
      simp only [answerIn_set hon, answerIn_set hon']
      exact ⟨rfl, compact_put h key _⟩
  | setList key entries =>
      simp only [answerIn_eq hon, answerIn_eq hon', answerOnline]
      exact ⟨rfl, compact_putList h key entries⟩
  | delete keys =>
      simp only [answerIn_delete hon, answerIn_delete hon', deleteAll_of_compact_eq h]
      exact ⟨rfl, compact_drop h keys⟩

end MemoryStore

/-! ### Plans -/

namespace Plan

variable {α β : Type} {L : String → Prop} {p : Plan α} {f : α → Plan β}

/-- The plan reads lists only for what their entries come to: it goes on in the same way after
replies that say the same. -/
def Gathers (L : String → Prop) : Plan α → Prop
  | .done _ => True
  | .call r next =>
    r.Spares L ∧ (∀ a b, r.SameReply a b → next a = next b) ∧ ∀ reply, Gathers L (next reply)
  | .acquire _ next => Gathers L next
  | .release _ next => Gathers L next

theorem gathers_pure (a : α) : (pure a : Plan α).Gathers L := trivial

theorem gathers_fail (e : StorageError) : (fail e : Plan α).Gathers L := trivial

theorem gathers_ofExcept (r : Except StorageError α) : (ofExcept r).Gathers L := trivial

/-- A request for anything but a list. -/
theorem gathers_ask {r : Request} (hr : r.Spares L) (hsame : ∀ a b, r.SameReply a b → a = b) :
    (ask r).Gathers L :=
  ⟨hr, fun a b h => by rw [hsame a b h], fun _ => trivial⟩

theorem gathers_bind (hp : p.Gathers L) (hf : ∀ a, (f a).Gathers L) : (p >>= f).Gathers L := by
  show (p.bind f).Gathers L
  induction p with
  | done result =>
      cases result with
      | ok a => exact hf a
      | error e => trivial
  | call r next ih =>
      obtain ⟨hr, hsame, hnext⟩ := hp
      exact ⟨hr, fun a b h => congrArg (·.bind f) (hsame a b h), fun reply => ih reply (hnext reply)⟩
  | acquire key next ih => exact ih hp
  | release key next ih => exact ih hp

theorem gathers_locked {key : String} (hp : p.Gathers L) : (p.locked key).Gathers L := by
  show (p.thenRelease key).Gathers L
  induction p with
  | done result => trivial
  | call r next ih =>
      obtain ⟨hr, hsame, hnext⟩ := hp
      exact ⟨hr, fun a b h => congrArg (thenRelease key) (hsame a b h),
        fun reply => ih reply (hnext reply)⟩
  | acquire k next ih => exact ih hp
  | release k next ih => exact ih hp

/-- **A plan that takes entries together** comes to the same in stores of one compact form, and
leaves stores of one compact form. -/
theorem Gathers.run_eq [DecidablePred L] {s s' : MemoryStore} (order : ScanOrder)
    (hp : p.Gathers L) (h : s'.compact L = s.compact L) :
    (p.run (MemoryStore.answerIn order) s').1 = (p.run (MemoryStore.answerIn order) s).1 ∧
      (p.run (MemoryStore.answerIn order) s').2.compact L
        = (p.run (MemoryStore.answerIn order) s).2.compact L := by
  induction p generalizing s s' with
  | done result => exact ⟨rfl, h⟩
  | call r next ih =>
      obtain ⟨hr, hsame, hnext⟩ := hp
      obtain ⟨hreply, hafter⟩ := MemoryStore.answerIn_of_compact_eq order h hr
      simp only [run, hsame _ _ hreply]
      exact ih _ (hnext _) hafter
  | acquire key next ih => exact ih hp h
  | release key next ih => exact ih hp h

end Plan

end IdentityStore
