/-
What lies under the keys of a namespace.

Every key is that of a record, a realm or a list, and what it holds can be read: a
record or a realm under its own name, a realm without members, a list as one entry in
which no name occurs twice.  `Shaped` says so of a store, one entry at a time, and since
no two kinds of keys are the same, each entry has one shape only.

Every operation keeps this at each of its requests, whatever others do meanwhile.  A
record is stored under the name that it was read with, and a changed list under the key
that it came from; which lists a deletion changes it learns from a pattern, which finds
lists only, in whatever order.  So the shapes hold at every point, wherever operations are
cut short: `represented_of_events`.
-/
import IdentityStore.Keyed.Repository
import IdentityStore.Proofs.Keys
import IdentityStore.Proofs.Membership
import IdentityStore.Proofs.Plan.Invariant
import IdentityStore.Proofs.Principal
import IdentityStore.Proofs.Store.Answer

namespace IdentityStore.Keyed

open Principal (entity)
open IdentityStore.Membership (names)

variable (keys : KeySpace)

/-! ### The shape of entries -/

/-- What may lie under the keys of a namespace: a record under its name, a realm without
members under its name, or one entry with members of different names under the key of a
list. -/
inductive Shape : String → Entry → Prop
  | record {kind : Kind} {text : String} {a : kind.Record}
      (decoded : Principal.ofPayload (Utf8.ofString text) = .ok a) :
      Shape (keys.record kind (Principal.name a)) (.text text)
  | realm {text : String} {r : Realm} (decoded : Realm.ofPayload (Utf8.ofString text) = .ok r)
      (name : isRealmName r.name = true) (clients : r.clients = []) (users : r.users = []) :
      Shape (keys.realm r.name) (.text text)
  | members {entry : String} {ms : List Member} (kind : Kind) (r : String)
      (decoded : Member.readEntry entry = .ok ms) (different : (names ms).Nodup) :
      Shape (keys.members kind r) (.list [entry])

/-- The store is online and holds nothing but entries of their shapes. -/
structure Shaped (s : MemoryStore) : Prop where
  online : s.online = true
  entries : ∀ k e, s.entries[k]? = some e → Shape keys k e

variable {keys} {s : MemoryStore}

theorem shaped_empty : Shaped keys .empty :=
  ⟨rfl, fun k e h => by rw [MemoryStore.getElem?_empty] at h; cases h⟩

theorem Shaped.put (h : Shaped keys s) {k : String} {e : Entry} (he : Shape keys k e) :
    Shaped keys (s.put k e) := by
  refine ⟨h.online, fun k' e' hk => ?_⟩
  rw [MemoryStore.getElem?_put] at hk
  split_ifs at hk with heq
  · cases hk
    exact heq ▸ he
  · exact h.entries k' e' hk

theorem Shaped.drop (h : Shaped keys s) (ks : List String) : Shaped keys (s.drop ks) := by
  refine ⟨(s.online_drop ks).trans h.online, fun k' e' hk => ?_⟩
  rw [MemoryStore.getElem?_drop] at hk
  split_ifs at hk
  exact h.entries k' e' hk

/-! ### What lies under a key -/

/-- The text under the key of a record is the record of that name. -/
theorem Shape.of_record {kind : Kind} {n : String} {e : Entry}
    (h : Shape keys (keys.record kind n) e) :
    ∃ text, ∃ a : kind.Record, e = .text text ∧
      Principal.ofPayload (Utf8.ofString text) = .ok a ∧ Principal.name a = n := by
  generalize hk : keys.record kind n = k at h
  cases h with
  | @record kind' text a decoded =>
      obtain ⟨rfl, rfl⟩ := keys.record_inj hk
      exact ⟨text, a, rfl, decoded, rfl⟩
  | realm => exact absurd hk keys.record_ne_realm
  | members => exact absurd hk keys.record_ne_members

/-- The text under the key of a realm is the realm of that name, without members. -/
theorem Shape.of_realm {n : String} {e : Entry} (hn : isRealmName n = true)
    (h : Shape keys (keys.realm n) e) :
    ∃ text r, e = .text text ∧ Realm.ofPayload (Utf8.ofString text) = .ok r ∧ r.name = n ∧
      r.clients = [] ∧ r.users = [] := by
  generalize hk : keys.realm n = k at h
  cases h with
  | record => exact absurd hk.symm keys.record_ne_realm
  | @realm text r decoded _ clients users =>
      exact ⟨text, r, rfl, decoded, (keys.realm_inj hk).symm, clients, users⟩
  | members => exact absurd hk (keys.realm_ne_members hn)

/-- The list under the key of a list is one entry with members of different names. -/
theorem Shape.of_members {kind : Kind} {r : String} {e : Entry}
    (h : Shape keys (keys.members kind r) e) :
    ∃ entry ms, e = .list [entry] ∧ Member.readEntry entry = .ok ms ∧ (names ms).Nodup := by
  generalize hk : keys.members kind r = k at h
  cases h with
  | record => exact absurd hk.symm keys.record_ne_members
  | realm _ name => exact absurd hk.symm (keys.realm_ne_members name)
  | @members entry ms _ _ decoded different => exact ⟨entry, ms, rfl, decoded, different⟩

/-! ### Requests -/

variable {α : Type} {Q : α → Prop}

variable (keys) in
/-- The plan leaves nothing but entries of their shapes, in whatever order the store lists its
keys, and what it ends with has the property `Q`. -/
abbrev Keeps (Q : α → Prop) (p : Plan α) : Prop :=
  p.Keeps MemoryStore.answerIn (Shaped keys) Q

theorem keeps_get (key : String) :
    Keeps keys (fun t => ∀ text, t = some text → Shape keys key (.text text))
      (Plan.ask (.get key)) := by
  refine Plan.keeps_ask ?_
  intro order s hs
  rw [MemoryStore.answerIn_get hs.online]
  refine ⟨hs, fun t ht text htext => ?_⟩
  subst htext
  dsimp only at ht
  unfold MemoryStore.text? at ht
  split at ht
  · cases ht
  · cases ht
    exact hs.entries key _ (by assumption)
  · cases ht

theorem keeps_getMany (ks : List String) :
    Keeps keys (fun _ => True) (Plan.ask (.getMany ks)) := by
  refine Plan.keeps_ask ?_
  intro order s hs
  rw [MemoryStore.answerIn_getMany hs.online]
  exact ⟨hs, fun _ _ => trivial⟩

theorem keeps_has (key : String) : Keeps keys (fun _ => True) (Plan.ask (.has key)) := by
  refine Plan.keeps_ask ?_
  intro order s hs
  rw [MemoryStore.answerIn_has hs.online]
  exact ⟨hs, fun _ _ => trivial⟩

theorem keeps_list (key : String) : Keeps keys (fun _ => True) (Plan.ask (.list key)) := by
  refine Plan.keeps_ask ?_
  intro order s hs
  rw [MemoryStore.answerIn_list hs.online]
  exact ⟨hs, fun _ _ => trivial⟩

theorem keeps_scan (kind : Kind) :
    Keeps keys (fun ks => ∀ k ∈ ks, ∃ r, k = keys.members kind r)
      (Plan.ask (.scan (keys.membersPattern kind))) := by
  refine Plan.keeps_ask ?_
  intro order s hs
  rw [MemoryStore.answerIn_scan hs.online]
  refine ⟨hs, fun ks hks k hk => ?_⟩
  cases hks
  exact keys.isMatch_membersPattern_iff.mp (order.mem_arrange.mp hk).2

theorem keeps_set {key value : String} (h : Shape keys key (.text value)) :
    Keeps keys (fun _ => True) (Plan.ask (.set key value)) := by
  refine Plan.keeps_ask ?_
  intro order s hs
  rw [MemoryStore.answerIn_set hs.online]
  exact ⟨hs.put h, fun _ _ => trivial⟩

theorem keeps_delete (ks : List String) : Keeps keys (fun _ => True) (Plan.ask (.delete ks)) := by
  refine Plan.keeps_ask ?_
  intro order s hs
  rw [MemoryStore.answerIn_delete hs.online]
  exact ⟨hs.drop ks, fun _ _ => trivial⟩

/-- A list is written as one entry. -/
theorem keeps_setMembers (kind : Kind) (r : String) {ms : List Member} (h : (names ms).Nodup) :
    Keeps keys (fun _ => True)
      (Plan.ask (.setList (keys.members kind r) (Membership.toEntries ms))) := by
  refine Plan.keeps_ask ?_
  intro order s hs
  rw [Membership.toEntries, MemoryStore.answerIn_setList hs.online]
  exact ⟨hs.put (.members kind r (Member.readEntry_writeEntry ms) h), fun _ _ => trivial⟩

/-! ### Looking up -/

theorem keeps_fetchRealm (name : String) : Keeps keys (fun _ => True) (fetchRealm keys name) := by
  unfold fetchRealm
  split_ifs
  · refine Plan.keeps_bind (keeps_get _) ?_
    intro t _
    cases t with
    | none => exact Plan.keeps_pure trivial
    | some text =>
        dsimp only
        split
        · exact Plan.keeps_pure trivial
        · exact Plan.keeps_fail _
  · exact Plan.keeps_pure trivial

theorem keeps_realmExists (name : String) :
    Keeps keys (fun found => found = true → isRealmName name = true) (realmExists keys name) := by
  unfold realmExists
  split_ifs with h
  · exact (keeps_has _).mono fun _ _ _ => h
  · exact Plan.keeps_pure fun h => absurd h Bool.false_ne_true

theorem keeps_requireRealm (name : String) :
    Keeps keys (fun _ => isRealmName name = true) (requireRealm keys name) := by
  refine Plan.keeps_bind (keeps_realmExists name) ?_
  intro found hfound
  cases found
  · exact Plan.keeps_fail _
  · exact Plan.keeps_pure (hfound rfl)

theorem keeps_getRealm (name : String) : Keeps keys (fun _ => True) (getRealm keys name) := by
  refine Plan.keeps_bind (keeps_fetchRealm name) ?_
  intro realm _
  cases realm with
  | none => exact Plan.keeps_fail _
  | some r => exact Plan.keeps_pure trivial

theorem keeps_fetch (kind : Kind) (name : String) :
    Keeps keys (fun found => ∀ a, found = some a → Principal.name a = name)
      (fetch keys kind.Record name) := by
  refine Plan.keeps_bind (keeps_get _) ?_
  intro t ht
  cases t with
  | none => exact Plan.keeps_pure fun a ha => nomatch ha
  | some text =>
      refine Plan.keeps_ofExcept ?_
      intro found hfound a ha
      obtain ⟨b, hb, rfl⟩ := Json.exists_of_map_eq_ok hfound
      cases ha
      have hshape := ht text rfl
      rw [Kind.kind_record] at hshape
      obtain ⟨_, b, heq, hdecoded, hname⟩ := hshape.of_record
      cases heq
      have hsame := Json.eq_ok_of_mapError hb
      rw [hdecoded] at hsame
      cases hsame
      exact hname

theorem keeps_getRecord (kind : Kind) (name : String) :
    Keeps keys (fun a => Principal.name a = name) (get keys kind.Record name) := by
  refine Plan.keeps_bind (keeps_fetch kind name) ?_
  intro found hfound
  cases found with
  | none => exact Plan.keeps_fail _
  | some a => exact Plan.keeps_pure (hfound a rfl)

theorem keeps_loadMembers (key : String) :
    Keeps keys (fun ms => (names ms).Nodup) (loadMembers key) := by
  refine Plan.keeps_bind (keeps_list key) ?_
  intro entries _
  refine Plan.keeps_ofExcept ?_
  intro ms hms
  exact Membership.nodup_ofEntries (Json.eq_ok_of_mapError hms)

theorem keeps_membersOf (kind : Kind) (realm : String) :
    Keeps keys (fun _ => True) (membersOf keys kind realm) :=
  Plan.keeps_bind (keeps_requireRealm realm) fun _ _ =>
    (keeps_loadMembers _).mono fun _ _ => trivial

theorem keeps_getFrom (kind : Kind) (realm name : String) :
    Keeps keys (fun _ => True) (getFrom keys kind.Record realm name) := by
  refine Plan.keeps_bind (keeps_membersOf _ realm) ?_
  intro ms _
  split
  · exact Plan.keeps_fail _
  · exact (keeps_getRecord kind _).mono fun _ _ => trivial

theorem keeps_getUserById (realm : String) (id : Uuid) :
    Keeps keys (fun _ => True) (getUserById keys realm id) := by
  refine Plan.keeps_bind (keeps_membersOf _ realm) ?_
  intro ms _
  split
  · exact Plan.keeps_fail _
  · exact (keeps_getRecord .user _).mono fun _ _ => trivial

theorem keeps_getAllFrom (kind : Kind) (realm : String) :
    Keeps keys (fun _ => True) (getAllFrom keys kind.Record realm) := by
  refine Plan.keeps_bind (keeps_membersOf _ realm) ?_
  intro ms _
  split_ifs
  · exact Plan.keeps_pure trivial
  · refine Plan.keeps_bind (keeps_getMany _) ?_
    intro texts _
    refine Plan.keeps_bind (Q := fun _ => True) (Plan.keeps_ofExcept fun _ _ => trivial) ?_
    rintro ⟨records, missing⟩ -
    dsimp only
    split_ifs
    · exact Plan.keeps_pure trivial
    · exact Plan.keeps_fail _

theorem keeps_getRealmWithMembers (name : String) :
    Keeps keys (fun _ => True) (getRealmWithMembers keys name) :=
  Plan.keeps_bind (keeps_getRealm name) fun _ _ =>
    Plan.keeps_bind (keeps_getAllFrom .client name) fun _ _ =>
      Plan.keeps_bind (keeps_getAllFrom .user name) fun _ _ => Plan.keeps_pure trivial

/-! ### Changing -/

/-- Reads the list under a key and writes what a change makes of it, if it makes anything
of it. -/
def rewriteMembers (key : String)
    (change : List Member → Except StorageError (Option (List Member))) : Plan Unit := do
  let members ← loadMembers key
  match ← Plan.ofExcept (change members) with
  | none => return ()
  | some members => Plan.ask (.setList key (Membership.toEntries members))

theorem changeMembers_none (key : String)
    (change : List Member → Except StorageError (Option (List Member))) :
    changeMembers keys key none change = (rewriteMembers key change).locked key := rfl

theorem changeMembers_some (key realm : String)
    (change : List Member → Except StorageError (Option (List Member))) :
    changeMembers keys key (some realm) change
      = (requireRealm keys realm >>= fun _ => rewriteMembers key change).locked key := rfl

/-- A list keeps its shape if the change keeps names apart. -/
theorem keeps_rewriteMembers (kind : Kind) (r : String)
    {change : List Member → Except StorageError (Option (List Member))}
    (h : ∀ ms ms', (names ms).Nodup → change ms = .ok (some ms') → (names ms').Nodup) :
    Keeps keys (fun _ => True) (rewriteMembers (keys.members kind r) change) := by
  refine Plan.keeps_bind (keeps_loadMembers _) ?_
  intro ms hms
  refine Plan.keeps_bind (Plan.keeps_ofExcept (Q := fun ms' => change ms = .ok ms') fun _ h => h)
    fun ms' hms' => ?_
  cases ms' with
  | none => exact Plan.keeps_pure trivial
  | some ms' => exact keeps_setMembers kind r (h ms ms' hms hms')

theorem keeps_changeMembers (kind : Kind) (r : String) (realm : Option String)
    {change : List Member → Except StorageError (Option (List Member))}
    (h : ∀ ms ms', (names ms).Nodup → change ms = .ok (some ms') → (names ms').Nodup) :
    Keeps keys (fun _ => True) (changeMembers keys (keys.members kind r) realm change) := by
  cases realm with
  | none =>
      rw [changeMembers_none]
      exact Plan.keeps_locked (keeps_rewriteMembers kind r h)
  | some name =>
      rw [changeMembers_some]
      exact Plan.keeps_locked
        (Plan.keeps_bind (keeps_requireRealm name) fun _ _ => keeps_rewriteMembers kind r h)

theorem keeps_resetMembers (kind : Kind) (r : String) {ms : List Member} (h : (names ms).Nodup) :
    Keeps keys (fun _ => True) (resetMembers keys (keys.members kind r) ms) := by
  refine keeps_changeMembers kind r none ?_
  intro current ms' _ hchange
  by_cases hsame : current = ms
  · rw [if_pos hsame] at hchange
    cases hchange
  · rw [if_neg hsame] at hchange
    cases hchange
    exact h

theorem keeps_removeEverywhere (kind : Kind) (name : String) {lists : List String}
    (h : ∀ k ∈ lists, ∃ r, k = keys.members kind r) :
    Keeps keys (fun _ => True) (removeEverywhere keys name lists) := by
  induction lists with
  | nil => exact Plan.keeps_pure trivial
  | cons k rest ih =>
      obtain ⟨r, rfl⟩ := h k (by simp)
      refine Plan.keeps_bind (keeps_changeMembers kind r none fun ms ms' hms hchange => ?_)
        fun _ _ => ih fun k hk => h k (by simp [hk])
      dsimp only at hchange
      split_ifs at hchange
      · cases hchange
      · cases hchange
        exact Membership.nodup_without hms name

theorem keeps_store {kind : Kind} {a b : kind.Record} {text : String}
    (h : Principal.ofPayload (Utf8.ofString text) = .ok b)
    (hname : Principal.name b = Principal.name a) :
    Keeps keys (fun _ => True) (store keys a text) := by
  refine Plan.keeps_locked ?_
  refine Plan.keeps_bind (keeps_fetch kind _) ?_
  intro stored _
  refine Plan.keeps_bind (Q := fun _ => True) (Plan.keeps_ofExcept fun _ _ => trivial) ?_
  intro _ _
  refine keeps_set ?_
  rw [Kind.kind_record, ← hname]
  exact .record h

/-- The text of a payload spells the record that the payload describes. -/
theorem ofPayload_payloadText {kind : Kind} {entity text : String} {payload : List UInt8}
    {a : kind.Record} (ha : ofRequest kind.Record payload = .ok a)
    (htext : payloadText entity payload = .ok text) :
    Principal.ofPayload (Utf8.ofString text) = .ok a := by
  rw [Utf8.ofString_of_decode (Json.eq_ok_of_mapError htext)]
  exact Json.eq_ok_of_mapError ha

theorem keeps_create (kind : Kind) (payload : List UInt8) :
    Keeps keys (fun _ => True) (create keys kind.Record payload) := by
  refine Plan.keeps_bind (Plan.keeps_ofExcept fun _ h => h) ?_
  intro a ha
  refine Plan.keeps_bind (Plan.keeps_ofExcept fun _ h => h) ?_
  intro text htext
  refine Plan.keeps_bind (keeps_store (ofPayload_payloadText ha htext) rfl) ?_
  intro _ _
  exact Plan.keeps_pure trivial

theorem keeps_update (kind : Kind) (name : String) (payload : List UInt8) :
    Keeps keys (fun _ => True) (update keys kind.Record name payload) := by
  refine Plan.keeps_bind (Plan.keeps_ofExcept fun _ h => h) ?_
  intro a ha
  refine Plan.keeps_bind (keeps_getRecord kind name) ?_
  intro stored hstored
  split_ifs with hname
  · exact Plan.keeps_fail _
  · refine Plan.keeps_bind (Q := fun _ => True) (Plan.keeps_ofExcept fun _ _ => trivial)
      fun _ _ => ?_
    refine Plan.keeps_bind (Plan.keeps_ofExcept fun _ h => h) ?_
    intro text htext
    refine Plan.keeps_bind (keeps_set ?_) fun _ _ => Plan.keeps_pure trivial
    rw [Kind.kind_record, ← hstored, ← not_not.mp hname]
    exact .record (ofPayload_payloadText ha htext)

theorem keeps_deleteRecord (kind : Kind) (name : String) :
    Keeps keys (fun _ => True) (delete keys kind name) := by
  refine Plan.keeps_bind (keeps_has _) ?_
  intro found _
  split_ifs
  · refine Plan.keeps_bind (keeps_scan kind) ?_
    intro lists hlists
    refine Plan.keeps_bind (keeps_removeEverywhere kind name hlists) ?_
    intro _ _
    exact Plan.keeps_bind (keeps_delete _) fun _ _ => Plan.keeps_pure trivial
  · exact Plan.keeps_fail _

theorem keeps_add (kind : Kind) (realm name : String) :
    Keeps keys (fun _ => True) (add keys kind.Record realm name) := by
  refine Plan.keeps_bind (keeps_requireRealm realm) ?_
  intro _ _
  refine Plan.keeps_bind (keeps_getRecord kind name) ?_
  intro a _
  refine keeps_changeMembers _ realm (some realm) ?_
  intro ms ms' hms hchange
  cases hchange
  exact Membership.nodup_upsert hms _

theorem keeps_remove (kind : Kind) (realm name : String) :
    Keeps keys (fun _ => True) (remove keys kind realm name) := by
  refine keeps_changeMembers kind realm (some realm) ?_
  intro ms ms' hms hchange
  dsimp only at hchange
  split_ifs at hchange
  cases hchange
  exact Membership.nodup_without hms name

/-! ### Realms -/

theorem keeps_checkNewMembers (kind : Kind) (seen : List String) (as : List kind.Record) :
    Keeps keys (fun _ => (as.map Principal.name).Nodup ∧ ∀ a ∈ as, Principal.name a ∉ seen)
      (checkNewMembers keys seen as) := by
  induction as generalizing seen with
  | nil => exact Plan.keeps_pure ⟨List.nodup_nil, fun a ha => nomatch ha⟩
  | cons a rest ih =>
      unfold checkNewMembers
      dsimp only
      split_ifs with hseen
      · exact Plan.keeps_fail _
      refine Plan.keeps_bind (keeps_fetch kind _) ?_
      intro stored _
      refine Plan.keeps_bind (Q := fun _ => True) (Plan.keeps_ofExcept fun _ _ => trivial)
        fun _ _ => ?_
      refine (ih (Principal.name a :: seen)).mono fun _ ⟨hnodup, hrest⟩ => ⟨?_, ?_⟩
      · refine List.nodup_cons.mpr ⟨fun hmem => ?_, hnodup⟩
        obtain ⟨b, hb, heq⟩ := List.mem_map.mp hmem
        exact hrest b hb (by simp [heq])
      · intro b hb
        rcases List.mem_cons.mp hb with rfl | hb
        · exact hseen
        · exact fun hmem => hrest b hb (by simp [hmem])

theorem keeps_storeAll (kind : Kind) {as : List kind.Record} (h : ∀ a ∈ as, kind.Sound a) :
    Keeps keys (fun _ => True) (storeAll keys as) := by
  induction as with
  | nil => exact Plan.keeps_pure trivial
  | cons a rest ih =>
      have ha := Kind.ofPayload_write (h a (by simp))
      exact Plan.keeps_bind (keeps_store ha (Kind.name_reread a)) fun _ _ =>
        ih fun a ha => h a (by simp [ha])

theorem keeps_putRealm {r : Realm} (h : isRealmName r.name = true) :
    Keeps keys (fun _ => True) (putRealm keys r) :=
  keeps_set (.realm (r := r.withoutMembers) (Realm.ofPayload_write (isRealmName_iff.mp h).1) h
    rfl rfl)

theorem keeps_createRealm (payload : List UInt8) :
    Keeps keys (fun _ => True) (createRealm keys payload) := by
  refine Plan.keeps_bind (Plan.keeps_ofExcept fun _ h => h) ?_
  intro r hr
  have hsound := Realm.sound_of_ofPayload (Json.eq_ok_of_mapError hr)
  refine Plan.keeps_bind (Plan.keeps_ofExcept fun _ h => h) ?_
  intro _ hname
  have hname := checkRealmName_eq_ok_iff.mp hname
  refine Plan.keeps_bind (keeps_realmExists _) ?_
  intro found _
  split_ifs
  · exact Plan.keeps_fail _
  refine Plan.keeps_bind (keeps_checkNewMembers .client [] r.clients) ?_
  intro _ hclients
  refine Plan.keeps_bind (keeps_checkNewMembers .user [] r.users) ?_
  intro _ husers
  refine Plan.keeps_bind (keeps_storeAll .client hsound.clients) ?_
  intro _ _
  refine Plan.keeps_bind (keeps_storeAll .user hsound.users) ?_
  intro _ _
  refine Plan.keeps_bind (keeps_resetMembers .client r.name ?_) fun _ _ => ?_
  · rw [names, List.map_map]
    exact hclients.1
  refine Plan.keeps_bind (keeps_resetMembers .user r.name ?_) fun _ _ => ?_
  · rw [names, List.map_map]
    exact husers.1
  exact Plan.keeps_bind (keeps_putRealm hname) fun _ _ => Plan.keeps_pure trivial

theorem keeps_updateRealm (name : String) (payload : List UInt8) :
    Keeps keys (fun _ => True) (updateRealm keys name payload) := by
  refine Plan.keeps_bind (Plan.keeps_ofExcept fun _ h => h) ?_
  intro r hr
  split_ifs with hname
  · exact Plan.keeps_fail _
  refine Plan.keeps_bind (keeps_requireRealm name) ?_
  intro _ hrealm
  refine Plan.keeps_bind (keeps_putRealm ?_) fun _ _ => Plan.keeps_pure trivial
  rw [not_not.mp hname]
  exact hrealm

theorem keeps_deleteRealm (name : String) :
    Keeps keys (fun _ => True) (deleteRealm keys name) :=
  Plan.keeps_bind (keeps_requireRealm name) fun _ _ =>
    Plan.keeps_locked (Plan.keeps_locked
      (Plan.keeps_bind (keeps_delete _) fun _ _ => Plan.keeps_pure trivial))

/-! ### Operations -/

/-- Every operation leaves nothing but entries of their shapes. -/
theorem keeps_plan (op : Operation) : Keeps keys (fun _ => True) (plan keys op) := by
  cases op with
  | getRealm name =>
      exact Plan.keeps_bind (keeps_getRealm name) fun _ _ => Plan.keeps_pure trivial
  | getRealmWithMembers name =>
      exact Plan.keeps_bind (keeps_getRealmWithMembers name) fun _ _ => Plan.keeps_pure trivial
  | createRealm payload =>
      exact Plan.keeps_bind (keeps_createRealm payload) fun _ _ => Plan.keeps_pure trivial
  | updateRealm name payload =>
      exact Plan.keeps_bind (keeps_updateRealm name payload) fun _ _ => Plan.keeps_pure trivial
  | deleteRealm name =>
      exact Plan.keeps_bind (keeps_deleteRealm name) fun _ _ => Plan.keeps_pure trivial
  | get kind name =>
      exact Plan.keeps_bind (keeps_getRecord kind name) fun _ _ => Plan.keeps_pure trivial
  | getFrom kind realm name =>
      exact Plan.keeps_bind (keeps_getFrom kind realm name) fun _ _ => Plan.keeps_pure trivial
  | getUserById realm id =>
      exact Plan.keeps_bind (keeps_getUserById realm id) fun _ _ => Plan.keeps_pure trivial
  | getAllFrom kind realm =>
      exact Plan.keeps_bind (keeps_getAllFrom kind realm) fun _ _ => Plan.keeps_pure trivial
  | create kind payload =>
      exact Plan.keeps_bind (keeps_create kind payload) fun _ _ => Plan.keeps_pure trivial
  | update kind name payload =>
      exact Plan.keeps_bind (keeps_update kind name payload) fun _ _ => Plan.keeps_pure trivial
  | delete kind name =>
      exact Plan.keeps_bind (keeps_deleteRecord kind name) fun _ _ => Plan.keeps_pure trivial
  | add kind realm name =>
      exact Plan.keeps_bind (keeps_add kind realm name) fun _ _ => Plan.keeps_pure trivial
  | remove kind realm name =>
      exact Plan.keeps_bind (keeps_remove kind realm name) fun _ _ => Plan.keeps_pure trivial

/-! ### The representation of a namespace -/

variable (keys) in
/-- What a store of one namespace holds. -/
structure Represented (s : MemoryStore) : Prop where
  /-- Under the key of a record lies the text of the record of that name. -/
  records : ∀ kind n e, s.entries[keys.record kind n]? = some e →
    ∃ text, ∃ a : kind.Record, e = .text text ∧
      Principal.ofPayload (Utf8.ofString text) = .ok a ∧ Principal.name a = n
  /-- Under the key of a realm lies the text of the realm of that name, which is one that a
  realm may have, without members; a name that no realm may have makes the key of a list. -/
  realms : ∀ n e, s.entries[keys.realm n]? = some e →
    (isRealmName n = true ∧ ∃ text r, e = .text text ∧
      Realm.ofPayload (Utf8.ofString text) = .ok r ∧ r.name = n ∧ r.clients = [] ∧ r.users = []) ∨
    ∃ kind r, keys.realm n = keys.members kind r
  /-- Under the key of a list lies one entry with members of different names. -/
  lists : ∀ kind r e, s.entries[keys.members kind r]? = some e →
    ∃ entry ms, e = .list [entry] ∧ Member.readEntry entry = .ok ms ∧ (names ms).Nodup
  /-- There are no other keys. -/
  others : ∀ k e, s.entries[k]? = some e → (∃ kind n, k = keys.record kind n) ∨
    (∃ n, isRealmName n = true ∧ k = keys.realm n) ∨ ∃ kind r, k = keys.members kind r

theorem Shaped.represented (h : Shaped keys s) : Represented keys s where
  records kind n e he := (h.entries _ e he).of_record
  realms n e he := by
    by_cases hn : isRealmName n = true
    · exact .inl ⟨hn, (h.entries _ e he).of_realm hn⟩
    · right
      have hshape := h.entries _ e he
      generalize hk : keys.realm n = k at hshape
      cases hshape with
      | record => exact absurd hk.symm keys.record_ne_realm
      | realm _ name => exact absurd (keys.realm_inj hk ▸ name) hn
      | members kind r => exact ⟨kind, r, rfl⟩
  lists kind r e he := (h.entries _ e he).of_members
  others k e he := by
    cases h.entries k e he with
    | @record kind _ a => exact .inl ⟨kind, Principal.name a, rfl⟩
    | @realm _ r _ name => exact .inr (.inl ⟨r.name, name, rfl⟩)
    | members kind r => exact .inr (.inr ⟨kind, r, rfl⟩)

/-- **The representation holds at every point**, whatever operations are under way side by
side, in whatever order their calls come, in whatever order the store lists its keys at each
of them, and wherever calls fail or operations are given up. -/
theorem represented_of_events (keys : KeySpace) (ops : List Operation)
    (events : List (ScanOrder × Crew.Event)) :
    Represented keys (events.foldl
      (fun c event => c.advance (MemoryStore.answerIn event.1) event.2)
      (Crew.start .empty (ops.map (plan keys)))).store := by
  have hstart : ∀ p ∈ ops.map (plan keys),
      p.Keeps MemoryStore.answerIn (Shaped keys) fun _ => True := by
    intro p hp
    obtain ⟨op, -, rfl⟩ := List.mem_map.mp hp
    exact keeps_plan op
  exact (Crew.invariant_of_events (Crew.keeps_start shaped_empty hstart) events).represented

end IdentityStore.Keyed
