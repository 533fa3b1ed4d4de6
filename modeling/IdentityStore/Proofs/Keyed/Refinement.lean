/-
A keyed store is a directory.

A store represents a directory if its records, its realms and the names in its lists are
those of the directory.  The identifiers in the lists need no saying, since every listed
member has a record of its identifier, and the store keeps that by itself.

Each operation is answered from a store as from the directory that the store represents,
and leaves a store that represents the directory that is left, whatever the order in which the
store lists its keys: `Meets`, one lemma for each operation.  From a store without keys on, all
answers are then those of a directory: `answers_eq_directory`.
-/
import IdentityStore.Proofs.Directory
import IdentityStore.Proofs.Keyed.Change
import IdentityStore.Proofs.Keyed.Integrity

namespace IdentityStore

namespace Keyed

open IdentityStore.Membership (names)
open MemoryStore (answerIn)

variable {keys : KeySpace} {order : ScanOrder} {s s' : MemoryStore} {d d' : Directory}
  {kind : Kind} {n r : String}

/-! ### Representation -/

/-- The views of the store are those of the directory. -/
structure Shows (keys : KeySpace) (s : MemoryStore) (d : Directory) : Prop where
  record : ∀ kind n, recordAt keys s kind n = (d.records kind)[n]?
  realm : ∀ n, realmAt keys s n = (d.tenants[n]?).map (Tenant.realm n)
  listed : ∀ kind r, names (membersAt keys s kind r) = d.listed kind r

/-- The store is sound and shows the directory. -/
structure Represents (keys : KeySpace) (s : MemoryStore) (d : Directory) : Prop where
  linked : Linked keys s
  shows : Shows keys s d

theorem represents_empty : Represents keys .empty .empty where
  linked := linked_empty
  shows := {
    record kind n := by
      rw [recordAt, MemoryStore.getElem?_empty]
      rfl
    realm n := by
      rw [realmAt, MemoryStore.getElem?_empty]
      split_ifs <;> rfl
    listed kind r := by
      rw [membersAt, MemoryStore.getElem?_empty]
      rfl }

namespace Represents

variable (h : Represents keys s d)

include h

theorem realmOr_eq (n : String) : realmOr keys s n = (d.tenant n).map (Tenant.realm n) := by
  rw [realmOr, h.shows.realm, Directory.tenant]
  cases d.tenants[n]? <;> rfl

theorem recordOr_eq (kind : Kind) (n : String) : recordOr keys s kind n = d.record kind n := by
  rw [recordOr, h.shows.record]
  unfold Directory.record
  cases (d.records kind)[n]? <;> rfl

theorem isRealmName_of_tenant {t : Tenant} (ht : d.tenant n = .ok t) : isRealmName n = true := by
  have hrealm := h.shows.realm n
  rw [Directory.getElem?_of_tenant ht] at hrealm
  exact isRealmName_of_realmAt hrealm

theorem names_eq {t : Tenant} (ht : d.tenant r = .ok t) (kind : Kind) :
    names (membersAt keys s kind r) = t.members kind :=
  (h.shows.listed kind r).trans (Directory.listed_of_tenant ht kind)

/-- The records of a list are those of the tenant. -/
theorem filterMap_eq {t : Tenant} (ht : d.tenant r = .ok t) (kind : Kind) :
    (membersAt keys s kind r).filterMap (fun m => recordAt keys s kind m.name)
      = d.members kind t := by
  rw [Directory.members, ← h.names_eq ht kind, names, List.filterMap_map]
  exact List.filterMap_congr fun m _ => h.shows.record kind m.name

theorem recordsOr_eq (kind : Kind) (r : String) :
    recordsOr keys s kind r = (d.tenant r).map (d.members kind) := by
  rw [Keyed.recordsOr_eq h.linked, h.realmOr_eq]
  rcases ht : d.tenant r with e | t
  · rfl
  · exact congrArg Except.ok (h.filterMap_eq ht kind)

omit h in
/-- A member that is found by its identifier has the first record of that identifier. -/
theorem find?_filterMap {ms : List Member} (hms : ∀ m ∈ ms, HasRecord keys s kind m) (id : Uuid) :
    (ms.filterMap fun m => recordAt keys s kind m.name).find? (Principal.id · = id)
      = (ms.find? (·.id = id)).bind fun m => recordAt keys s kind m.name := by
  induction ms with
  | nil => rfl
  | cons m rest ih =>
      obtain ⟨a, ha, hid⟩ := hms m (by simp)
      rw [List.filterMap_cons, ha]
      dsimp only
      rw [List.find?_cons, List.find?_cons, hid]
      by_cases hm : m.id = id
      · simp [hm, ha]
      · simp [hm, ih fun m hm => hms m (by simp [hm])]

end Represents

/-! ### Plans -/

variable {α β : Type}

/-- The plan, run alone, ends as said: with a result and a store that shows a directory, or
with an error, and then nothing has changed. -/
def Meets (keys : KeySpace) (order : ScanOrder) (s : MemoryStore) (p : Plan α) :
    Except StorageError (α × Directory) → Prop
  | .ok (a, d) => ∃ s', p.run (answerIn order) s = (.ok a, s') ∧ Shows keys s' d
  | .error e => p.run (answerIn order) s = (.error e, s)

theorem meets_fail (e : StorageError) : Meets keys order s (Plan.fail e : Plan α) (.error e) := rfl

/-- A plan that goes on after a look-up. -/
theorem meets_look {p : Plan α} {f : α → Plan β} {x : Except StorageError α}
    {out : α → Except StorageError (β × Directory)}
    (hrun : p.run (answerIn order) s = (x, s))
    (hf : ∀ a, x = .ok a → Meets keys order s (f a) (out a)) :
    Meets keys order s (p >>= f) (x.bind out) := by
  rcases x with e | a
  · exact Plan.run_bind_error hrun
  · have hfa := hf a rfl
    show Meets keys order s (p >>= f) (out a)
    rcases hout : out a with e | ⟨b, d⟩
    · rw [hout] at hfa
      exact (Plan.run_bind_ok hrun).trans hfa
    · rw [hout] at hfa
      obtain ⟨s', hs', hshows⟩ := hfa
      exact ⟨s', (Plan.run_bind_ok hrun).trans hs', hshows⟩

/-- A plan that goes on after a look-up that does not fail. -/
theorem meets_after {p : Plan α} {f : α → Plan β} {a : α}
    {out : Except StorageError (β × Directory)} (hrun : p.run (answerIn order) s = (.ok a, s))
    (hf : Meets keys order s (f a) out) : Meets keys order s (p >>= f) out :=
  by
  show Meets keys order s (p >>= f) ((Except.ok a : Except StorageError α).bind fun _ => out)
  exact meets_look hrun fun _ hb => Except.ok.inj hb ▸ hf

/-- A look-up leaves what the store shows. -/
theorem meets_lookup {p : Plan α} {x : Except StorageError α} (hs : Shows keys s d)
    (hrun : p.run (answerIn order) s = (x, s)) : Meets keys order s p (x.map fun a => (a, d)) := by
  rcases x with e | a
  · exact hrun
  · exact ⟨s, hrun, hs⟩

/-- A plan that names its result differently. -/
theorem Meets.map {p : Plan α} {out : Except StorageError (α × Directory)}
    (h : Meets keys order s p out) (f : α → β) :
    Meets keys order s (p >>= fun a => pure (f a)) (out.map (Prod.map f fun d => d)) := by
  rcases out with e | ⟨a, d⟩
  · exact Plan.run_bind_error h
  · obtain ⟨s', hrun, hs'⟩ := h
    exact ⟨s', (Plan.run_bind_ok hrun).trans rfl, hs'⟩

/-! ### Records -/

theorem ofRequest_eq (kind : Kind) (payload : List UInt8) :
    ofRequest kind.Record payload = Directory.readRecord kind payload := by
  rw [ofRequest, Kind.entity_record]
  rfl

theorem checkId_eq (known : Option kind.Record) (a : kind.Record) :
    checkId known a = Directory.checkId known a := by
  rw [checkId.eq_def, Kind.entity_record]
  cases known <;> rfl

theorem Shows.putRecord (h : Shows keys s d) {a : kind.Record} {text : String}
    (ha : Principal.ofPayload (Utf8.ofString text) = .ok a) :
    Shows keys (putRecord keys s kind (Principal.name a) text) (d.putRecord a) where
  record kind' m := by
    by_cases hkind : kind' = kind
    · subst hkind
      rw [Directory.getElem?_putRecord]
      split_ifs with hm
      · rw [← hm, recordAt_putRecord_self ha]
      · rw [recordAt_putRecord_ne fun _ heq => hm heq.symm, h.record]
    · rw [Directory.records_putRecord_ne hkind, recordAt_putRecord_ne fun heq => absurd heq hkind,
        h.record]
  realm m := (realmAt_putRecord m).trans (h.realm m)
  listed kind' r := by
    rw [membersAt_putRecord]
    exact h.listed kind' r

theorem meets_store (order : ScanOrder) (hs : Shaped keys s) (h : Shows keys s d) {a : kind.Record} {text : String}
    (ha : Principal.ofPayload (Utf8.ofString text) = .ok a) :
    Meets keys order s (store keys a text)
      ((Directory.checkId ((d.records kind)[Principal.name a]?) a).map
        fun _ => ((), d.putRecord a)) := by
  have hrun := run_store order hs a text
  rw [checkId_eq, h.record] at hrun
  rcases hcheck : Directory.checkId ((d.records kind)[Principal.name a]?) a with e | u
  · rw [hcheck] at hrun
    exact hrun
  · rw [hcheck] at hrun
    exact ⟨_, hrun, h.putRecord ha⟩

theorem meets_create (h : Represents keys s d) (kind : Kind) (payload : List UInt8) :
    Meets keys order s (create keys kind.Record payload) (d.create kind payload) := by
  unfold create Directory.create
  rw [ofRequest_eq, Kind.entity_record]
  refine meets_look (Plan.run_ofExcept _) ?_
  intro a ha
  refine meets_look (Plan.run_ofExcept _) ?_
  intro text htext
  have hread := ofPayload_payloadText (ofRequest_eq kind payload ▸ ha) htext
  have hstore := (meets_store order h.linked.shaped h.shows hread).map fun _ => a
  rcases hcheck : Directory.checkId ((d.records kind)[Principal.name a]?) a with e | u
  · rw [hcheck] at hstore
    exact hstore
  · rw [hcheck] at hstore
    exact hstore

theorem meets_update (h : Represents keys s d) (kind : Kind) (n : String) (payload : List UInt8) :
    Meets keys order s (update keys kind.Record n payload) (d.update kind n payload) := by
  unfold update Directory.update
  rw [ofRequest_eq, Kind.entity_record, Kind.kind_record]
  refine meets_look (Plan.run_ofExcept _) ?_
  intro a ha
  refine meets_look ((run_get order h.linked.shaped kind n).trans (by rw [h.recordOr_eq])) ?_
  intro b hb
  have hbn : Principal.name b = n := by
    rw [← h.recordOr_eq] at hb
    exact h.linked.shaped.name_of_recordAt (recordAt_of_recordOr hb)
  rw [hbn]
  by_cases hname : Principal.name a = n
  · rw [if_neg (not_not.mpr hname), if_neg (not_not.mpr hname), checkId_eq]
    refine meets_look (Plan.run_ofExcept _) ?_
    intro _ _
    refine meets_look (Plan.run_ofExcept _) ?_
    intro text htext
    have hread := ofPayload_payloadText (ofRequest_eq kind payload ▸ ha) htext
    subst hname
    exact ⟨_, Plan.run_bind_ok (run_set h.linked.shaped _ text), h.shows.putRecord hread⟩
  · rw [if_pos hname, if_pos hname]
    exact meets_fail _

/-- The names in a list, and a record, go from a directory as they go from a store. -/
theorem Shows.delete (h : Shows keys s d) {s₁ : MemoryStore}
    (h₁ : Relisted keys s (fun kind' r => if kind' = kind
      then Membership.without n (membersAt keys s kind' r) else membersAt keys s kind' r) s₁) :
    Shows keys (s₁.drop [keys.record kind n]) (d.dropRecord kind n) where
  record kind' m := by
    by_cases hkind : kind' = kind
    · subst hkind
      rw [Directory.getElem?_dropRecord]
      split_ifs with hm
      · exact recordAt_drop_of_mem (by simp [hm])
      · rw [recordAt_drop, h₁.record, h.record]
        intro hmem
        exact hm (keys.record_inj (List.mem_singleton.mp hmem)).2.symm
    · rw [Directory.records_dropRecord_ne hkind, recordAt_drop, h₁.record, h.record]
      intro hmem
      exact hkind (keys.record_inj (List.mem_singleton.mp hmem)).1
  realm m := by
    rw [realmAt_drop fun _ => by simp [keys.record_ne_realm.symm], h₁.realm, h.realm,
      Directory.getElem?_tenants_dropRecord, Option.map_map]
    rfl
  listed kind' r := by
    rw [membersAt_drop (by simp [keys.record_ne_members.symm]), h₁.members,
      Directory.listed_dropRecord, ← h.listed]
    split_ifs
    · exact Membership.names_without n _
    · rfl

theorem meets_delete (h : Represents keys s d) (kind : Kind) (n : String) :
    Meets keys order s (delete keys kind n) (d.delete kind n) := by
  have hs := h.linked.shaped
  have hrecord := h.shows.record kind n
  unfold delete Directory.delete Directory.record
  rcases hs.record_cases kind n with ⟨hnone, hview⟩ | ⟨text, a, hsome, -, -, hview⟩
  · rw [← hrecord, hview]
    refine (Plan.run_bind_ok (run_has hs _)).trans ?_
    rw [Std.ExtTreeMap.contains_eq_isSome_getElem?, hnone]
    rfl
  · rw [← hrecord, hview]
    obtain ⟨s₁, hremove, h₁⟩ := run_removeScanned order hs kind n
    refine ⟨_, (Plan.run_bind_ok (run_has hs _)).trans ?_, h.shows.delete h₁⟩
    rw [Std.ExtTreeMap.contains_eq_isSome_getElem?, hsome]
    refine (Plan.run_bind_ok (run_scan hs _)).trans ?_
    exact (Plan.run_bind_ok hremove).trans (run_deleteKeys h₁.shaped _)

/-! ### Members -/

/-- A list of a realm is changed in a directory as in a store. -/
theorem Shows.putMembers (h : Shows keys s d) {t t' : Tenant} {ms : List Member}
    (ht : d.tenant r = .ok t) (hrealm : t'.realm r = t.realm r)
    (hself : t'.members kind = names ms)
    (hothers : ∀ kind', kind' ≠ kind → t'.members kind' = t.members kind') :
    Shows keys (putMembers keys s kind r ms) (d.putTenant r t') where
  record kind' m := (recordAt_putMembers kind' m).trans (h.record kind' m)
  realm m := by
    rw [realmAt_putMembers, h.realm, Directory.getElem?_putTenant]
    split_ifs with hm
    · subst hm
      rw [Directory.getElem?_of_tenant ht]
      exact congrArg some hrealm.symm
    · rfl
  listed kind' r' := by
    rw [Directory.listed_putTenant]
    by_cases hsame : kind' = kind ∧ r' = r
    · obtain ⟨rfl, rfl⟩ := hsame
      rw [membersAt_putMembers_self, if_pos rfl, hself]
    · rw [membersAt_putMembers_ne fun hkind hr => hsame ⟨hkind, hr⟩, h.listed]
      split_ifs with hr
      · subst hr
        rw [Directory.listed_of_tenant ht, hothers kind' fun hkind => hsame ⟨hkind, rfl⟩]
      · rfl

/-- Alone, a realm that was there before a lock was taken is there after. -/
theorem run_changeMembers (order : ScanOrder) (h : Represents keys s d) {t : Tenant}
    (ht : d.tenant r = .ok t) (kind : Kind)
    (change : List Member → Except StorageError (Option (List Member))) :
    (changeMembers keys (keys.members kind r) (some r) change).run (answerIn order) s
      = (rewriteMembers (keys.members kind r) change).run (answerIn order) s := by
  have hrequire := run_requireRealm order h.linked.shaped r
  rw [h.realmOr_eq, ht] at hrequire
  rw [changeMembers_some, Plan.run_locked, Plan.run_bind_ok hrequire]

theorem meets_add (h : Represents keys s d) (kind : Kind) (r n : String) :
    Meets keys order s (add keys kind.Record r n) (d.add kind r n) := by
  have hs := h.linked.shaped
  have hrequire := run_requireRealm order hs r
  have hget := run_get order hs kind n
  unfold add Directory.add
  rw [Kind.kind_record]
  rw [h.realmOr_eq] at hrequire
  rw [h.recordOr_eq] at hget
  rcases ht : d.tenant r with e | t
  · rw [ht] at hrequire
    exact Plan.run_bind_error hrequire
  rw [ht] at hrequire
  rcases ha : d.record kind n with e | a
  · rw [ha] at hget
    exact (Plan.run_bind_ok hrequire).trans (Plan.run_bind_error hget)
  rw [ha] at hget
  have hname : Principal.name a = n := by
    rw [← h.recordOr_eq] at ha
    exact hs.name_of_recordAt (recordAt_of_recordOr ha)
  refine ⟨_, (Plan.run_bind_ok hrequire).trans ((Plan.run_bind_ok hget).trans
    ((run_changeMembers order h ht kind _).trans (run_rewriteMembers hs kind r _))), ?_⟩
  have hnames := h.names_eq ht kind
  refine h.shows.putMembers ht (t.realm_add n r) ?_ fun kind' hkind => t.members_add_ne n hkind
  rw [Membership.names_upsert, hnames, t.members_add]
  show _ = if Principal.name a ∈ t.members kind then _ else _ ++ [Principal.name a]
  rw [hname]

theorem meets_remove (h : Represents keys s d) (kind : Kind) (r n : String) :
    Meets keys order s (remove keys kind r n) (d.remove kind r n) := by
  have hs := h.linked.shaped
  have hrequire := run_requireRealm order hs r
  unfold remove Directory.remove
  rw [h.realmOr_eq] at hrequire
  rcases ht : d.tenant r with e | t
  · rw [ht] at hrequire
    show Plan.run _ _ _ = _
    rw [changeMembers_some, Plan.run_locked]
    exact Plan.run_bind_error hrequire
  have hrun := (run_changeMembers order h ht kind _).trans <|
    run_rewriteMembers hs kind r fun members =>
      let left := Membership.without n members
      if left.length = members.length then .error (.notMember kind.entity r n)
      else .ok (some left)
  have hnames := h.names_eq ht kind
  dsimp only at hrun
  by_cases hn : n ∈ t.members kind
  · rw [if_neg (fun hlength => Membership.length_without_eq_iff.mp hlength (hnames ▸ hn))] at hrun
    show Meets keys order s _ (if n ∈ t.members kind then _ else _)
    rw [if_pos hn]
    refine ⟨_, hrun, h.shows.putMembers ht rfl ?_ fun kind' hkind => t.members_remove_ne n hkind⟩
    rw [Membership.names_without, hnames, t.members_remove]
  · rw [if_pos (Membership.length_without_eq_iff.mpr (hnames ▸ hn))] at hrun
    show Meets keys order s _ (if n ∈ t.members kind then _ else _)
    rw [if_neg hn]
    exact hrun

/-! ### Realms -/

/-- The document of a realm is written after the lists were made those of its tenant. -/
theorem Shows.putDocument (h : Shows keys s d) {lists : Kind → String → List Member}
    (hs : Relisted keys s lists s') {realm : Realm} {t : Tenant}
    (hname : isRealmName realm.name = true) (hrealm : realm.withoutMembers = t.realm realm.name)
    (hself : ∀ kind, names (lists kind realm.name) = t.members kind)
    (hothers : ∀ kind r, r ≠ realm.name → lists kind r = membersAt keys s kind r) :
    Shows keys (putDocument keys s' realm) (d.putTenant realm.name t) where
  record kind m := (recordAt_putDocument kind m).trans ((hs.record kind m).trans (h.record kind m))
  realm m := by
    rw [Directory.getElem?_putTenant]
    split_ifs with hm
    · rw [← hm, realmAt_putDocument_self hname, hrealm]
      rfl
    · rw [realmAt_putDocument_ne fun heq => hm heq.symm, hs.realm, h.realm]
  listed kind r := by
    rw [membersAt_putDocument hname, hs.members, Directory.listed_putTenant]
    split_ifs with hr
    · rw [← hr, hself]
    · rw [hothers kind r fun heq => hr heq.symm]
      exact h.listed kind r

theorem run_checkNewMembers (hs : Shaped keys s) (kind : Kind) (seen : List String)
    (as : List kind.Record) :
    (checkNewMembers keys seen as).run (answerIn order) s
      = (Directory.checkNew kind (recordAt keys s kind) seen as, s) := by
  induction as generalizing seen with
  | nil => rfl
  | cons a rest ih =>
      unfold checkNewMembers Directory.checkNew
      dsimp only
      rw [Kind.entity_record]
      split_ifs
      · rfl
      · rw [Plan.run_bind_ok (run_fetch hs kind _), checkId_eq]
        rcases Directory.checkId (recordAt keys s kind (Principal.name a)) a with e | u
        · exact Plan.run_bind_error (Plan.run_ofExcept _)
        · exact (Plan.run_bind_ok (Plan.run_ofExcept _)).trans (ih _)

/-- New members are stored as they are read back. -/
theorem run_storeAll (order : ScanOrder) (hs : Shaped keys s) (h : Shows keys s d)
    {as : List kind.Record} (hsound : ∀ a ∈ as, kind.Sound a)
    (hnodup : (as.map Principal.name).Nodup)
    (hids : ∀ a ∈ as, Directory.checkId ((d.records kind)[Principal.name a]?) a = .ok ()) :
    ∃ s', (storeAll keys as).run (answerIn order) s = (.ok (), s') ∧ Shaped keys s' ∧
      Shows keys s' (d.putNew Kind.reread kind as) := by
  induction as generalizing s d with
  | nil => exact ⟨s, rfl, hs, h⟩
  | cons a rest ih =>
      have hread := Kind.ofPayload_write (hsound a (by simp))
      have hname := Kind.name_reread a
      have hrun := run_store order hs a (Principal.write a)
      rw [checkId_eq, h.record, hids a (by simp), ← hname] at hrun
      obtain ⟨hfresh, hnodup⟩ := List.nodup_cons.mp hnodup
      obtain ⟨s', hrest, hs'⟩ := ih (hs.putRecord hread) (h.putRecord hread)
        (fun b hb => hsound b (by simp [hb])) hnodup fun b hb => by
          rw [Directory.getElem?_putRecord, if_neg, hids b (by simp [hb])]
          rw [hname]
          exact fun heq => hfresh (heq ▸ List.mem_map_of_mem hb)
      exact ⟨s', (Plan.run_bind_ok hrun).trans hrest, hs'⟩

theorem meets_createRealm (h : Represents keys s d) (payload : List UInt8) :
    Meets keys order s (createRealm keys payload) (d.createRealm Kind.reread payload) := by
  have hs := h.linked.shaped
  have hknown : ∀ kind, recordAt keys s kind = fun n => (d.records kind)[n]? :=
    fun kind => funext (h.shows.record kind)
  unfold createRealm Directory.createRealm
  refine meets_look (Plan.run_ofExcept _) ?_
  intro realm hrealm
  have hsound := Realm.sound_of_ofPayload (Json.eq_ok_of_mapError hrealm)
  refine meets_look (Plan.run_ofExcept _) ?_
  intro _ hcheck
  have hname := checkRealmName_eq_ok_iff.mp hcheck
  refine meets_after (run_realmExists hs realm.name) ?_
  rw [h.shows.realm, Option.isSome_map]
  split_ifs
  · exact meets_fail _
  refine meets_look (run_checkNewMembers hs .client [] realm.clients |>.trans
    (by rw [hknown])) fun _ hclients => ?_
  refine meets_look (run_checkNewMembers hs .user [] realm.users |>.trans
    (by rw [hknown])) fun _ husers => ?_
  obtain ⟨hcnodup, -, hcids⟩ := Directory.of_checkNew hclients
  obtain ⟨hunodup, -, huids⟩ := Directory.of_checkNew husers
  obtain ⟨s₁, hrun₁, hs₁, h₁⟩ := run_storeAll order hs h.shows hsound.clients hcnodup hcids
  obtain ⟨s₂, hrun₂, hs₂, h₂⟩ := run_storeAll order hs₁ h₁ hsound.users hunodup (by
    rw [Directory.records_putNew_ne _ _ _ (by decide)]
    exact huids)
  obtain ⟨s₃, hrun₃, h₃⟩ := run_resetMembers order hs₂ .client realm.name
    (realm.clients.map Principal.member) (by rwa [names, List.map_map])
  obtain ⟨s₄, hrun₄, h₄⟩ := run_resetMembers order h₃.shaped .user realm.name
    (realm.users.map Principal.member) (by rwa [names, List.map_map])
  refine ⟨_, (Plan.run_bind_ok hrun₁).trans ((Plan.run_bind_ok hrun₂).trans
    ((Plan.run_bind_ok hrun₃).trans ((Plan.run_bind_ok hrun₄).trans
      (Plan.run_bind_ok (run_putRealm h₄.shaped realm))))), ?_⟩
  refine h₂.putDocument (h₃.trans h₄) hname rfl (fun kind => ?_) fun kind r hr => ?_
  · cases kind
    · rw [relist, if_neg (by simp), h₃.members, relist, if_pos ⟨rfl, rfl⟩, names, List.map_map]
      rfl
    · rw [relist, if_pos ⟨rfl, rfl⟩, names, List.map_map]
      rfl
  · rw [relist, if_neg (fun hand => hr hand.2), h₃.members, relist, if_neg fun hand => hr hand.2]

theorem meets_updateRealm (h : Represents keys s d) (n : String) (payload : List UInt8) :
    Meets keys order s (updateRealm keys n payload) (d.updateRealm n payload) := by
  have hs := h.linked.shaped
  unfold updateRealm Directory.updateRealm
  refine meets_look (Plan.run_ofExcept _) ?_
  intro realm _
  by_cases hname : realm.name = n
  · rw [if_neg (not_not.mpr hname), if_neg (not_not.mpr hname)]
    subst hname
    have hrequire := run_requireRealm order hs realm.name
    rw [h.realmOr_eq] at hrequire
    rcases ht : d.tenant realm.name with e | t
    · rw [ht] at hrequire
      exact Plan.run_bind_error hrequire
    rw [ht] at hrequire
    refine ⟨_, (Plan.run_bind_ok hrequire).trans (Plan.run_bind_ok (run_putRealm hs realm)), ?_⟩
    exact h.shows.putDocument (.refl hs) (h.isRealmName_of_tenant ht) rfl
      (fun kind => h.names_eq ht kind) fun _ _ _ => rfl
  · rw [if_pos hname, if_pos hname]
    exact meets_fail _

/-- A realm is removed with its lists. -/
theorem Shows.dropRealm (h : Shows keys s d) (hn : isRealmName n = true) :
    Shows keys (s.drop [keys.realm n, keys.members .client n, keys.members .user n])
      (d.dropTenant n) where
  record kind m := by
    rw [recordAt_drop (by simp [keys.record_ne_realm, keys.record_ne_members]), h.record]
    rfl
  realm m := by
    rw [Directory.getElem?_dropTenant]
    split_ifs with hm
    · exact realmAt_drop_of_mem (by simp [hm])
    · rw [realmAt_drop, h.realm]
      intro hvalid hmem
      have hne : keys.realm m ≠ keys.realm n := fun heq => hm (keys.realm_inj heq).symm
      simp [hne, keys.realm_ne_members hvalid] at hmem
  listed kind r := by
    rw [Directory.listed_dropTenant]
    split_ifs with hr
    · rw [membersAt_drop_of_mem]
      · rfl
      · cases kind <;> simp [hr]
    · rw [membersAt_drop, h.listed]
      intro hmem
      simp only [List.mem_cons, List.not_mem_nil, or_false] at hmem
      rcases hmem with heq | heq | heq
      · exact keys.realm_ne_members hn heq.symm
      · exact hr (keys.members_inj heq).2.symm
      · exact hr (keys.members_inj heq).2.symm

theorem meets_deleteRealm (h : Represents keys s d) (n : String) :
    Meets keys order s (deleteRealm keys n) (d.deleteRealm n) := by
  have hs := h.linked.shaped
  have hrequire := run_requireRealm order hs n
  unfold deleteRealm Directory.deleteRealm
  rw [h.realmOr_eq] at hrequire
  rcases ht : d.tenant n with e | t
  · rw [ht] at hrequire
    exact Plan.run_bind_error hrequire
  rw [ht] at hrequire
  refine ⟨_, (Plan.run_bind_ok hrequire).trans ?_, h.shows.dropRealm (h.isRealmName_of_tenant ht)⟩
  dsimp only
  rw [Plan.run_locked, Plan.run_locked]
  exact run_deleteKeys hs _

/-! ### Looking up -/

theorem meets_getRealm (h : Represents keys s d) (n : String) :
    Meets keys order s (getRealm keys n) (d.unchanged (d.getRealm n)) := by
  refine meets_lookup h.shows ((run_getRealm order h.linked.shaped n).trans ?_)
  rw [h.realmOr_eq, Directory.getRealm]
  rcases d.tenant n with e | t <;> rfl

theorem meets_getRealmWithMembers (h : Represents keys s d) (n : String) :
    Meets keys order s (getRealmWithMembers keys n) (d.unchanged (d.getRealmWithMembers n)) := by
  refine meets_lookup h.shows ((run_getRealmWithMembers h.linked.shaped n).trans ?_)
  rw [h.realmOr_eq, h.recordsOr_eq, h.recordsOr_eq, Directory.getRealmWithMembers]
  rcases d.tenant n with e | t <;> rfl

theorem meets_get (h : Represents keys s d) (kind : Kind) (n : String) :
    Meets keys order s (get keys kind.Record n) (d.unchanged (d.record kind n)) := by
  refine meets_lookup h.shows ((run_get order h.linked.shaped kind n).trans ?_)
  rw [h.recordOr_eq]

theorem meets_getFrom (h : Represents keys s d) (kind : Kind) (r n : String) :
    Meets keys order s (getFrom keys kind.Record r n) (d.unchanged (d.getFrom kind r n)) := by
  refine meets_lookup h.shows ((run_getFrom h.linked.shaped kind r n).trans ?_)
  rw [h.realmOr_eq, h.recordOr_eq, Directory.getFrom]
  rcases ht : d.tenant r with e | t
  · rfl
  · rw [h.names_eq ht]
    rfl

theorem meets_getUserById (h : Represents keys s d) (r : String) (id : Uuid) :
    Meets keys order s (getUserById keys r id) (d.unchanged (d.getUserById r id)) := by
  refine meets_lookup h.shows ((run_getUserById h.linked.shaped r id).trans ?_)
  rw [h.realmOr_eq, Directory.getUserById]
  rcases ht : d.tenant r with e | t
  · rfl
  have hfind : (d.members .user t).find? (User.id · = id)
      = ((membersAt keys s .user r).find? (·.id = id)).bind fun m =>
          recordAt keys s .user m.name := by
    rw [← h.filterMap_eq ht]
    exact Represents.find?_filterMap (h.linked.links .user r) id
  dsimp only [Except.bind, bind]
  rw [hfind]
  cases hm : (membersAt keys s .user r).find? fun m => decide (m.id = id) with
  | none => rfl
  | some m =>
    obtain ⟨u, hu, -⟩ := h.linked.links .user r m (List.mem_of_find?_eq_some hm)
    rw [Option.bind_some, hu]
    dsimp only
    rw [recordOr, hu]
    rfl

theorem meets_getAllFrom (h : Represents keys s d) (kind : Kind) (r : String) :
    Meets keys order s (getAllFrom keys kind.Record r) (d.unchanged (d.getAllFrom kind r)) := by
  refine meets_lookup h.shows ((run_getAllFrom order h.linked.shaped kind r).trans ?_)
  rw [h.recordsOr_eq, Directory.getAllFrom]
  rcases d.tenant r with e | t <;> rfl

/-! ### Operations -/

/-- Every operation is answered as from the directory, and leaves what the directory is
afterwards. -/
theorem meets_plan (order : ScanOrder) (h : Represents keys s d) (op : Operation) :
    Meets keys order s (plan keys op) (d.perform Kind.reread op) := by
  cases op with
  | getRealm n => exact (meets_getRealm h n).map Answer.realm
  | getRealmWithMembers n => exact (meets_getRealmWithMembers h n).map Answer.realm
  | createRealm payload => exact (meets_createRealm h payload).map Answer.realm
  | updateRealm n payload => exact (meets_updateRealm h n payload).map Answer.realm
  | deleteRealm n => exact (meets_deleteRealm h n).map fun _ => Answer.done
  | get kind n => exact (meets_get h kind n).map (Answer.one kind)
  | getFrom kind r n => exact (meets_getFrom h kind r n).map (Answer.one kind)
  | getUserById r id => exact (meets_getUserById h r id).map (Answer.one .user)
  | getAllFrom kind r => exact (meets_getAllFrom h kind r).map (Answer.many kind)
  | create kind payload => exact (meets_create h kind payload).map (Answer.one kind)
  | update kind n payload => exact (meets_update h kind n payload).map (Answer.one kind)
  | delete kind n => exact (meets_delete h kind n).map fun _ => Answer.done
  | add kind r n => exact (meets_add h kind r n).map fun _ => Answer.done
  | remove kind r n => exact (meets_remove h kind r n).map fun _ => Answer.done

/-- One operation keeps the store and the directory together. -/
theorem represents_step (h : Represents keys s d) (op : Operation) :
    (performIn keys order s op).1 = (Directory.step Kind.reread d op).1 ∧
      Represents keys (performIn keys order s op).2 (Directory.step Kind.reread d op).2 := by
  have hlinked : Linked keys (performIn keys order s op).2 := (safe_plan h.linked op).run
  have hmeets := meets_plan order h op
  unfold Directory.step
  rcases hout : d.perform Kind.reread op with e | ⟨answer, d'⟩
  · rw [hout] at hmeets
    refine ⟨congrArg Prod.fst hmeets, hlinked, ?_⟩
    rw [show (performIn keys order s op).2 = s from congrArg Prod.snd hmeets]
    exact h.shows
  · rw [hout] at hmeets
    obtain ⟨s', hrun, hshows⟩ := hmeets
    refine ⟨congrArg Prod.fst hrun, hlinked, ?_⟩
    rw [show (performIn keys order s op).2 = s' from congrArg Prod.snd hrun]
    exact hshows

/-- A directory that a store represents is sound. -/
theorem Represents.wellFormed (h : Represents keys s d) : d.WellFormed := by
  have htenant : ∀ {n t}, d.tenants[n]? = some t → d.tenant n = .ok t := by
    intro n t ht
    rw [Directory.tenant, ht]
  refine ⟨fun n t ht => h.isRealmName_of_tenant (htenant ht), fun n t kind ht => ?_,
    fun n t kind ht m hm => ?_, fun kind n a ha => ?_⟩
  · rw [← h.names_eq (htenant ht)]
    exact h.linked.shaped.nodup_membersAt kind n
  · rw [← h.names_eq (htenant ht)] at hm
    obtain ⟨m, hlisted, rfl⟩ := List.mem_map.mp hm
    obtain ⟨a, ha, -⟩ := h.linked.links kind n m hlisted
    exact ⟨a, (h.shows.record kind m.name).symm.trans ha⟩
  · exact h.linked.shaped.name_of_recordAt ((h.shows.record kind n).trans ha)

/-! ### Histories -/

theorem answers_of_represents (h : Represents keys s d) (ops : List Operation) :
    answers (performIn keys order) s ops = answers (Directory.step Kind.reread) d ops ∧
      (ops.foldl (fun d op => (Directory.step Kind.reread d op).2) d).WellFormed := by
  induction ops generalizing s d with
  | nil => exact ⟨rfl, h.wellFormed⟩
  | cons op rest ih =>
      obtain ⟨hanswer, hnext⟩ := represents_step h op
      obtain ⟨hrest, hwell⟩ := ih hnext
      exact ⟨congrArg₂ List.cons hanswer hrest, hwell⟩

/-- Without floating numbers, the answers of a directory do not depend on how the records
of new realms are written. -/
theorem answers_reread (d : Directory) {ops : List Operation}
    (h : ∀ op ∈ ops, op.isExact = true) :
    answers (Directory.step Kind.reread) d ops
      = answers (Directory.step fun _ a => a) d ops := by
  induction ops generalizing d with
  | nil => rw [answers, answers]
  | cons op rest ih =>
      rw [answers, answers, Directory.step_reread (h op (by simp)),
        ih _ fun op hop => h op (by simp [hop])]

/-- **A keyed store is a directory.**  Whatever operations come one after the other, and in
whatever order the store lists its keys, a store that had no keys answers all of them as a
directory does, whose lists and names are sound at every point.  Records that come with a new
realm are kept as they are read back, which is as they come if they hold no floating numbers. -/
theorem answers_eq_directory (keys : KeySpace) (order : ScanOrder) (ops : List Operation) :
    answers (performIn keys order) MemoryStore.empty ops
        = answers (Directory.step Kind.reread) Directory.empty ops ∧
      ((∀ op ∈ ops, op.isExact = true) → answers (performIn keys order) MemoryStore.empty ops
        = answers (Directory.step fun _ a => a) Directory.empty ops) ∧
      (ops.foldl (fun d op => (Directory.step Kind.reread d op).2) Directory.empty).WellFormed := by
  have hempty : Represents keys .empty .empty := represents_empty
  obtain ⟨hanswers, hwell⟩ := answers_of_represents hempty ops
  exact ⟨hanswers, fun h => hanswers.trans (answers_reread _ h), hwell⟩

/-- A realm is created with a client and read with its members. -/
def acme : List Operation :=
  [.createRealm (Utf8.ofString ("\x7b\"name\":\"acme\",\"clients\":[\x7b\"name\":\"web\"," ++
      "\"id\":\"00000000-0000-0000-0000-000000000001\"\x7d]\x7d")),
    .getRealmWithMembers "acme"]

theorem answers_acme :
    (∀ op ∈ acme, op.isExact = true) ∧ answers (performIn .default .rising) MemoryStore.empty acme
      = answers (Directory.step fun _ a => a) Directory.empty acme := by
  have hexact : ∀ op ∈ acme, op.isExact = true := by decide +kernel
  exact ⟨hexact, (answers_eq_directory .default .rising acme).2.1 hexact⟩

end Keyed

end IdentityStore
