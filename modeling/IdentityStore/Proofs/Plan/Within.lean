/-
Plans that keep to some keys.

A request that names its keys reads no others and writes no others.  So where all requests of a
plan name keys with some property, whatever they are answered, the plan leaves all other keys
as they are; and two stores that are alike on the keys with the property cannot be told apart
by it.  `Within` is put together like the plan.  A scan names no keys, and is left out here.
-/
import IdentityStore.Proofs.Store.Answer

namespace IdentityStore

/-- The request names its keys, and they have the property. -/
def Request.Within (P : String → Prop) : Request → Prop
  | .get key | .has key | .list key | .set key _ | .setList key _ => P key
  | .getMany keys | .delete keys => ∀ key ∈ keys, P key
  | .scan _ => False

namespace MemoryStore

variable {P : String → Prop} {s s' : MemoryStore} {order order' : ScanOrder}

theorem getElem?_putList (s : MemoryStore) (key : String) (entries : List String) (k : String) :
    (s.putList key entries).entries[k]?
      = if key = k then (if entries = [] then none else some (.list entries))
        else s.entries[k]? := by
  unfold putList update
  dsimp only
  by_cases hentries : entries = []
  · rw [if_pos hentries, if_pos hentries, Std.ExtTreeMap.getElem?_erase]
    simp only [Std.LawfulEqCmp.compare_eq_iff_eq]
  · rw [if_neg hentries, if_neg hentries, Std.ExtTreeMap.getElem?_insert]
    simp only [Std.LawfulEqCmp.compare_eq_iff_eq]

/-! ### Stores that are alike on some keys -/

/-- The stores hold the same under the keys with the property, and both are online or neither
is. -/
structure Alike (P : String → Prop) (s s' : MemoryStore) : Prop where
  online : s'.online = s.online
  entry : ∀ key, P key → s'.entries[key]? = s.entries[key]?

namespace Alike

theorem contains (h : Alike P s s') {key : String} (hkey : P key) :
    s'.entries.contains key = s.entries.contains key := by
  rw [Std.ExtTreeMap.contains_eq_isSome_getElem?, Std.ExtTreeMap.contains_eq_isSome_getElem?,
    h.entry key hkey]

theorem put (h : Alike P s s') (key : String) (entry : Entry) :
    Alike P (s.put key entry) (s'.put key entry) where
  online := h.online
  entry k hk := by rw [getElem?_put, getElem?_put, h.entry k hk]

theorem drop (h : Alike P s s') (keys : List String) : Alike P (s.drop keys) (s'.drop keys) where
  online := by rw [online_drop, online_drop, h.online]
  entry k hk := by rw [getElem?_drop, getElem?_drop, h.entry k hk]

theorem putList (h : Alike P s s') (key : String) (entries : List String) :
    Alike P (s.putList key entries) (s'.putList key entries) where
  online := h.online
  entry k hk := by rw [getElem?_putList, getElem?_putList, h.entry k hk]

/-- As many keys are removed from both. -/
theorem deleteAll (h : Alike P s s') {keys : List String} (hkeys : ∀ key ∈ keys, P key) :
    (s'.deleteAll keys).1 = (s.deleteAll keys).1 := by
  induction keys generalizing s s' with
  | nil => rfl
  | cons key rest ih =>
      have hcount := ih (h.drop [key]) fun k hk => hkeys k (by simp [hk])
      have hfound := h.contains (hkeys key (by simp))
      show (if s'.entries.contains key then ((s'.drop [key]).deleteAll rest).1 + 1
        else ((s'.drop [key]).deleteAll rest).1) = _
      rw [hcount, hfound]
      rfl

/-- A request that names only keys with the property is answered alike, and leaves the stores
alike. -/
theorem answerIn (h : Alike P s s') {r : Request} (hr : r.Within P) :
    (s'.answerIn order' r).1 = (s.answerIn order r).1 ∧
      Alike P (s.answerIn order r).2 (s'.answerIn order' r).2 := by
  by_cases hon : s.online = true
  swap
  · have hon' : s'.online ≠ true := fun hon' => hon (h.online.symm.trans hon')
    rw [answerIn_offline hon, answerIn_offline hon']
    exact ⟨rfl, h⟩
  have hon' : s'.online = true := h.online.trans hon
  cases r with
  | scan pattern => exact hr.elim
  | get key =>
      simp only [answerIn_get hon, answerIn_get hon', text?, h.entry key hr]
      exact ⟨trivial, h⟩
  | getMany keys =>
      simp only [answerIn_getMany hon, answerIn_getMany hon']
      refine ⟨congrArg Except.ok (List.map_congr_left fun key hkey => ?_), h⟩
      simp only [textOrNone, h.entry key (hr key hkey)]
  | has key =>
      simp only [answerIn_has hon, answerIn_has hon', h.contains hr]
      exact ⟨trivial, h⟩
  | list key =>
      simp only [answerIn_list hon, answerIn_list hon', list?, h.entry key hr]
      exact ⟨trivial, h⟩
  | set key value =>
      simp only [answerIn_set hon, answerIn_set hon']
      exact ⟨trivial, h.put key _⟩
  | setList key entries =>
      simp only [answerIn_eq hon, answerIn_eq hon', answerOnline]
      exact ⟨trivial, h.putList key entries⟩
  | delete keys =>
      simp only [answerIn_delete hon, answerIn_delete hon', h.deleteAll hr]
      exact ⟨trivial, h.drop keys⟩

end Alike

/-- A request leaves alone the keys that it does not name. -/
theorem entry_of_within {r : Request} (hr : r.Within P) {k : String} (hk : ¬ P k) :
    (s.answerIn order r).2.entries[k]? = s.entries[k]? := by
  by_cases hon : s.online = true
  swap
  · rw [answerIn_offline hon]
  cases r with
  | scan pattern => exact hr.elim
  | set key value =>
      have hne : key ≠ k := fun heq => hk (heq ▸ hr)
      rw [after_set, if_pos hon, getElem?_put, if_neg hne]
  | setList key entries =>
      have hne : key ≠ k := fun heq => hk (heq ▸ hr)
      simp only [answerIn_eq hon, answerOnline]
      rw [getElem?_putList, if_neg hne]
  | delete keys =>
      have hne : k ∉ keys := fun hmem => hk (hr k hmem)
      rw [after_delete, if_pos hon, getElem?_drop, if_neg hne]
  | _ => rw [answerIn_of_isRead rfl]

end MemoryStore

/-! ### Plans -/

namespace Plan

open MemoryStore (Alike)

variable {α β : Type} {P : String → Prop} {p : Plan α} {f : α → Plan β} {s s' : MemoryStore}
  {order order' : ScanOrder}

/-- All requests of the plan name keys with the property, whatever they are answered. -/
def Within (P : String → Prop) : Plan α → Prop
  | .done _ => True
  | .call r next => r.Within P ∧ ∀ reply, Within P (next reply)
  | .acquire _ next => Within P next
  | .release _ next => Within P next

theorem within_pure (a : α) : (pure a : Plan α).Within P := trivial

theorem within_fail (e : StorageError) : (fail e : Plan α).Within P := trivial

theorem within_ofExcept (r : Except StorageError α) : (ofExcept r).Within P := trivial

theorem within_ask {r : Request} (h : r.Within P) : (ask r).Within P := ⟨h, fun _ => trivial⟩

theorem within_bind (hp : p.Within P) (hf : ∀ a, (f a).Within P) : (p >>= f).Within P := by
  show (p.bind f).Within P
  induction p with
  | done result =>
      cases result with
      | ok a => exact hf a
      | error e => trivial
  | call r next ih => exact ⟨hp.1, fun reply => ih reply (hp.2 reply)⟩
  | acquire key next ih => exact ih hp
  | release key next ih => exact ih hp

theorem within_locked {key : String} (hp : p.Within P) : (p.locked key).Within P := by
  show (p.thenRelease key).Within P
  induction p with
  | done result => trivial
  | call r next ih => exact ⟨hp.1, fun reply => ih reply (hp.2 reply)⟩
  | acquire k next ih => exact ih hp
  | release k next ih => exact ih hp

/-- A plan leaves alone the keys that it does not keep to. -/
theorem Within.run_entry (hp : p.Within P) (s : MemoryStore) {k : String} (hk : ¬ P k) :
    (p.run (MemoryStore.answerIn order) s).2.entries[k]? = s.entries[k]? := by
  induction p generalizing s with
  | done result => rfl
  | call r next ih =>
      have hrest := ih _ (hp.2 (s.answerIn order r).1) (s.answerIn order r).2
      exact hrest.trans (MemoryStore.entry_of_within hp.1 hk)
  | acquire key next ih => exact ih hp s
  | release key next ih => exact ih hp s

/-- **A plan that keeps to some keys** cannot tell stores apart that are alike on them. -/
theorem Within.run_alike (hp : p.Within P) (h : Alike P s s') :
    (p.run (MemoryStore.answerIn order') s').1 = (p.run (MemoryStore.answerIn order) s).1 ∧
      Alike P (p.run (MemoryStore.answerIn order) s).2
        (p.run (MemoryStore.answerIn order') s').2 := by
  induction p generalizing s s' with
  | done result => exact ⟨rfl, h⟩
  | call r next ih =>
      have hanswer : (s'.answerIn order' r).1 = (s.answerIn order r).1 ∧
          Alike P (s.answerIn order r).2 (s'.answerIn order' r).2 := h.answerIn hp.1
      obtain ⟨hreply, hafter⟩ := hanswer
      have hrest := ih _ (hp.2 (s.answerIn order r).1) hafter
      simp only [run, hreply]
      exact hrest
  | acquire key next ih => exact ih hp h
  | release key next ih => exact ih hp h

end Plan

end IdentityStore
