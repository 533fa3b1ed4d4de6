/-
A snapshot mirrors a directory.

A snapshot holds a record once for every realm that lists it and perhaps once more in a
table.  It mirrors a directory if all copies are the record of the directory, every record
has a copy somewhere, and the realms list the members that the directory lists, in the same
order: `Mirrors`.  What a snapshot finds is then what the directory has, wherever it looks
first.
-/
import IdentityStore.Proofs.Directory
import IdentityStore.Proofs.Snapshot.Copies

namespace IdentityStore

open Principal (name)

/-! ### Realms and snapshots by kind -/

namespace Kind

variable {kind kind' : Kind} (as : List kind.Record) (r : Realm) (t : Snapshot)

@[simp] theorem ofRealm_inRealm : Principal.ofRealm (Principal.inRealm as r) = as := by
  cases kind <;> rfl

theorem ofRealm_inRealm_ne (h : kind' ≠ kind) :
    Principal.ofRealm (α := kind'.Record) (Principal.inRealm as r) = Principal.ofRealm r := by
  cases kind <;> cases kind' <;> first | rfl | exact absurd rfl h

@[simp] theorem name_inRealm : (Principal.inRealm as r).name = r.name := by
  cases kind <;> rfl

@[simp] theorem withoutMembers_inRealm :
    (Principal.inRealm as r).withoutMembers = r.withoutMembers := by
  cases kind <;> rfl

@[simp] theorem ofSnapshot_inSnapshot :
    Principal.ofSnapshot (Principal.inSnapshot as t) = as := by
  cases kind <;> rfl

theorem ofSnapshot_inSnapshot_ne (h : kind' ≠ kind) :
    Principal.ofSnapshot (α := kind'.Record) (Principal.inSnapshot as t)
      = Principal.ofSnapshot t := by
  cases kind <;> cases kind' <;> first | rfl | exact absurd rfl h

@[simp] theorem realms_inSnapshot : (Principal.inSnapshot as t).realms = t.realms := by
  cases kind <;> rfl

/-- Realms are the same if they are without members, and their members of either kind are. -/
theorem realm_ext {r r' : Realm} (h : r.withoutMembers = r'.withoutMembers)
    (hmembers : ∀ kind : Kind, Principal.ofRealm (α := kind.Record) r = Principal.ofRealm r') :
    r = r' := by
  obtain ⟨n, clients, users, token, refresh⟩ := r
  obtain ⟨n', clients', users', token', refresh'⟩ := r'
  have hclients : clients = clients' := hmembers .client
  have husers : users = users' := hmembers .user
  cases hclients
  cases husers
  cases h
  rfl

end Kind

namespace Snapshot

variable {t : Snapshot} {kind kind' : Kind}

/-! ### Changes of snapshots -/

@[simp] theorem realms_modifyTable (f : List kind.Record → List kind.Record) :
    (t.modifyTable f).realms = t.realms := Kind.realms_inSnapshot _ t

@[simp] theorem realm?_modifyTable (f : List kind.Record → List kind.Record) (n : String) :
    (t.modifyTable f).realm? n = t.realm? n := by
  rw [realm?, realm?, realms_modifyTable]

/-- What is true of a table after its change, and of the tables of the other kinds, is true
of all tables. -/
theorem forall_modifyTable {P : (k : Kind) → List k.Record → Prop}
    {f : List kind.Record → List kind.Record} (hself : P kind (f (Principal.ofSnapshot t)))
    (hothers : ∀ kind', kind' ≠ kind → P kind' (Principal.ofSnapshot t)) (kind' : Kind) :
    P kind' (Principal.ofSnapshot (t.modifyTable f)) := by
  rw [modifyTable]
  by_cases hkind : kind' = kind
  · subst hkind
    rwa [Kind.ofSnapshot_inSnapshot]
  · rw [Kind.ofSnapshot_inSnapshot_ne _ _ hkind]
    exact hothers kind' hkind

theorem names_modifyRealms {f : Realm → Realm} (hf : ∀ r, (f r).name = r.name) :
    (t.modifyRealms f).realms.map Realm.name = t.realms.map Realm.name := by
  simp [modifyRealms, hf]

theorem realm?_modifyRealms {f : Realm → Realm} (hf : ∀ r, (f r).name = r.name) (n : String) :
    (t.modifyRealms f).realm? n = (t.realm? n).map f := by
  rw [realm?, realm?, modifyRealms, List.find?_map]
  congr 2
  exact funext fun r => by simp [hf]

theorem realm?_modifyRealm {f : Realm → Realm} (hf : ∀ r, (f r).name = r.name) (n m : String) :
    (t.modifyRealm n f).realm? m = if m = n then (t.realm? n).map f else t.realm? m := by
  have hgo : ∀ rs : List Realm, (modifyRealm.go n f rs).find? (·.name = m)
      = if m = n then (rs.find? (·.name = n)).map f else rs.find? (·.name = m) := by
    intro rs
    induction rs with
    | nil => simp [modifyRealm.go]
    | cons r rest ih =>
        rw [modifyRealm.go]
        by_cases hr : r.name = n
        · rw [if_pos hr]
          by_cases hm : m = n
          · simp [hf, hr, hm]
          · have hne : n ≠ m := fun heq => hm heq.symm
            simp [hf, hr, hm, hne]
        · rw [if_neg hr]
          by_cases hrm : r.name = m
          · have hm : m ≠ n := fun heq => hr (hrm.trans heq)
            simp [hrm, hm]
          · rw [List.find?_cons_of_neg (by simp [hrm]), ih, List.find?_cons_of_neg (by simp [hr]),
              List.find?_cons_of_neg (by simp [hrm])]
  exact hgo t.realms

theorem names_modifyRealm {f : Realm → Realm} (hf : ∀ r, (f r).name = r.name) (n : String) :
    (t.modifyRealm n f).realms.map Realm.name = t.realms.map Realm.name := by
  have hgo : ∀ rs : List Realm, (modifyRealm.go n f rs).map Realm.name = rs.map Realm.name := by
    intro rs
    induction rs with
    | nil => rfl
    | cons r rest ih =>
        rw [modifyRealm.go]
        split_ifs
        · rw [List.map_cons, List.map_cons, hf]
        · rw [List.map_cons, List.map_cons, ih]
  exact hgo t.realms

/-- Only the realm that is found counts. -/
theorem modifyRealm_congr {n : String} {f g : Realm → Realm}
    (h : ∀ r, t.realm? n = some r → f r = g r) : t.modifyRealm n f = t.modifyRealm n g := by
  have hgo : ∀ rs : List Realm, (∀ r, rs.find? (·.name = n) = some r → f r = g r) →
      modifyRealm.go n f rs = modifyRealm.go n g rs := by
    intro rs hrs
    induction rs with
    | nil => rfl
    | cons r rest ih =>
        rw [modifyRealm.go, modifyRealm.go]
        by_cases hr : r.name = n
        · rw [if_pos hr, if_pos hr, hrs r (List.find?_cons_of_pos (by simp [hr]))]
        · rw [List.find?_cons_of_neg (by simp [hr])] at hrs
          rw [if_neg hr, if_neg hr, ih hrs]
  rw [modifyRealm, modifyRealm, hgo t.realms h]

theorem ofSnapshot_modifyRealm (f : Realm → Realm) (n : String) :
    Principal.ofSnapshot (α := kind.Record) (t.modifyRealm n f) = Principal.ofSnapshot t := by
  cases kind <;> rfl

theorem ofSnapshot_modifyRealms (f : Realm → Realm) :
    Principal.ofSnapshot (α := kind.Record) (t.modifyRealms f) = Principal.ofSnapshot t := by
  cases kind <;> rfl

/-- A realm of a list of different names is the one that is found by its name. -/
theorem realm?_of_mem (h : (t.realms.map Realm.name).Nodup) {r : Realm} (hr : r ∈ t.realms) :
    t.realm? r.name = some r := by
  rw [realm?]
  cases hfind : t.realms.find? fun r' => decide (r'.name = r.name) with
  | none =>
    have hno := List.find?_eq_none.mp hfind r hr
    simp at hno
  | some r' =>
    have hname : r'.name = r.name := by simpa using List.find?_some hfind
    rw [List.inj_on_of_nodup_map h (List.mem_of_find?_eq_some hfind) hr hname]

/-- What is found in a list of different names after one was taken out. -/
theorem find?_eraseP {rs : List Realm} (h : (rs.map Realm.name).Nodup) (n m : String) :
    (rs.eraseP (·.name = n)).find? (·.name = m)
      = if m = n then none else rs.find? (·.name = m) := by
  induction rs with
  | nil => simp
  | cons r rest ih =>
      obtain ⟨hfresh, hrest⟩ := List.nodup_cons.mp h
      by_cases hr : r.name = n
      · rw [List.eraseP_cons_of_pos (by simp [hr])]
        by_cases hm : m = n
        · rw [if_pos hm]
          refine List.find?_eq_none.mpr fun r' hr' => ?_
          simp only [decide_eq_true_eq]
          exact fun heq => hfresh (hr ▸ hm ▸ heq ▸ List.mem_map_of_mem hr')
        · rw [if_neg hm, List.find?_cons_of_neg (by simp [hr]; exact fun heq => hm heq.symm)]
      · rw [List.eraseP_cons_of_neg (by simp [hr])]
        by_cases hrm : r.name = m
        · rw [List.find?_cons_of_pos (by simp [hrm]), List.find?_cons_of_pos (by simp [hrm]),
            if_neg fun heq => hr (hrm.trans heq)]
        · rw [List.find?_cons_of_neg (by simp [hrm]), List.find?_cons_of_neg (by simp [hrm]),
            ih hrest]

/-- A realm of which the members of one kind are changed. -/
theorem eq_modifyMembers {f : List kind.Record → List kind.Record} {r r' : Realm}
    (h : r'.withoutMembers = r.withoutMembers)
    (hself : Principal.ofRealm (α := kind.Record) r' = f (Principal.ofRealm r))
    (hothers : ∀ kind', kind' ≠ kind →
      Principal.ofRealm (α := kind'.Record) r' = Principal.ofRealm r) :
    r' = modifyMembers f r := by
  refine Kind.realm_ext (h.trans (Kind.withoutMembers_inRealm _ r).symm) ?_
  intro kind'
  by_cases hkind : kind' = kind
  · subst hkind
    rw [hself, modifyMembers, Kind.ofRealm_inRealm]
  · rw [hothers kind' hkind, modifyMembers, Kind.ofRealm_inRealm_ne _ _ hkind]

@[simp] theorem name_modifyMembers (f : List kind.Record → List kind.Record) (r : Realm) :
    (modifyMembers f r).name = r.name := Kind.name_inRealm _ r

end Snapshot

/-! ### Mirrors -/

namespace Directory

/-- The realm of a tenant, with the records of its members. -/
def full (d : Directory) (n : String) (t : Tenant) : Realm :=
  { t.realm n with clients := d.members .client t, users := d.members .user t }

@[simp] theorem ofRealm_full (d : Directory) (n : String) (t : Tenant) (kind : Kind) :
    Principal.ofRealm (α := kind.Record) (d.full n t) = d.members kind t := by
  cases kind <;> rfl

/-- The realm of a tenant after the members of one kind have changed. -/
theorem full_eq_modifyMembers {d d' : Directory} {n : String} {t t' : Tenant} {kind : Kind}
    {f : List kind.Record → List kind.Record} (hrealm : t'.realm n = t.realm n)
    (hself : d'.members kind t' = f (d.members kind t))
    (hothers : ∀ kind', kind' ≠ kind → d'.members kind' t' = d.members kind' t) :
    d'.full n t' = Snapshot.modifyMembers f (d.full n t) := by
  refine Snapshot.eq_modifyMembers hrealm ?_ fun kind' hkind => ?_
  · rw [ofRealm_full, ofRealm_full, hself]
  · rw [ofRealm_full, ofRealm_full, hothers kind' hkind]

end Directory

/-- The snapshot holds what the directory knows. -/
structure Mirrors (t : Snapshot) (d : Directory) : Prop where
  /-- Every record of a table is the one of its name. -/
  table : ∀ kind, ∀ a ∈ Principal.ofSnapshot (α := kind.Record) t,
    (d.records kind)[name a]? = some a
  unique : ∀ kind : Kind, ((Principal.ofSnapshot (α := kind.Record) t).map name).Nodup
  /-- Every record is in its table, or a realm lists it. -/
  held : ∀ (kind : Kind) (n : String) a, (d.records kind)[n]? = some a →
    a ∈ Principal.ofSnapshot t ∨
      ∃ (r : String) (tenant : Tenant), d.tenants[r]? = some tenant ∧ n ∈ tenant.members kind
  realm : ∀ n : String, t.realm? n = (d.tenants[n]?).map (d.full n)
  different : (t.realms.map Realm.name).Nodup

/-- A snapshot without records mirrors a directory without records. -/
theorem mirrors_empty : Mirrors {} .empty where
  table kind a ha := by cases kind <;> cases ha
  unique kind := by cases kind <;> exact List.nodup_nil
  held kind n a ha := by
    rw [Directory.empty, Std.ExtTreeMap.getElem?_empty] at ha
    cases ha
  realm n := by
    rw [Directory.empty, Std.ExtTreeMap.getElem?_empty]
    rfl
  different := List.nodup_nil

namespace Mirrors

variable {t : Snapshot} {d : Directory} {kind : Kind} (h : Mirrors t d) (hd : d.WellFormed)

include h hd

/-- Every copy of a record is the record. -/
theorem record_of_copy {a : kind.Record} (ha : a ∈ t.copies kind.Record) :
    (d.records kind)[name a]? = some a := by
  rcases List.mem_append.mp ha with ha | ha
  · exact h.table kind a ha
  · obtain ⟨r, hr, ha⟩ := List.mem_flatMap.mp ha
    have hrealm := (Snapshot.realm?_of_mem h.different hr).symm.trans (h.realm r.name)
    rcases htenant : d.tenants[r.name]? with _ | tenant
    · rw [htenant] at hrealm
      cases hrealm
    · rw [htenant] at hrealm
      rw [Option.some.inj hrealm, Directory.ofRealm_full] at ha
      obtain ⟨n, -, ha⟩ := List.mem_filterMap.mp ha
      rw [hd.records kind n a ha, ha]

/-- A record is found if it is known. -/
theorem find?_eq (n : String) : t.find? kind.Record n = (d.records kind)[n]? := by
  rcases hrecord : (d.records kind)[n]? with _ | a
  · refine List.find?_eq_none.mpr fun b hb => ?_
    simp only [decide_eq_true_eq]
    rintro rfl
    rw [h.record_of_copy hd hb] at hrecord
    cases hrecord
  · have ha : a ∈ t.copies kind.Record := by
      rcases h.held kind n a hrecord with ha | ⟨r, tenant, htenant, hn⟩
      · exact List.mem_append_left _ ha
      · refine List.mem_append_right _ (List.mem_flatMap.mpr ⟨d.full r tenant, ?_, ?_⟩)
        · have hrealm := h.realm r
          rw [htenant] at hrealm
          exact List.mem_of_find?_eq_some hrealm
        · rw [Directory.ofRealm_full]
          exact List.mem_filterMap.mpr ⟨n, hn, hrecord⟩
    rw [Snapshot.find?]
    cases hfind : (t.copies kind.Record).find? fun b => decide (name b = n) with
    | none =>
      have hno := List.find?_eq_none.mp hfind a ha
      simp [hd.records kind n a hrecord] at hno
    | some b =>
      have hb := h.record_of_copy hd (List.mem_of_find?_eq_some hfind)
      have hname : name b = n := by simpa using List.find?_some hfind
      rw [hname, hrecord] at hb
      exact hb.symm

end Mirrors

end IdentityStore
