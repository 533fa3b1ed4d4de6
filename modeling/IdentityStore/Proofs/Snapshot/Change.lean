/-
Changes that keep a snapshot the mirror of a directory.

Each change of a directory has one of a snapshot beside it.  A record that changes is
changed in all its copies, and a record that leaves its last realm moves to its table, so
that none is lost; a record that comes with a new realm goes to its table, and is one that
no other realm has, or the same.
-/
import IdentityStore.Proofs.Snapshot.Mirror

namespace IdentityStore

open Principal (name)

namespace Mirrors

variable {t : Snapshot} {d : Directory} {kind : Kind} (h : Mirrors t d) (hd : d.WellFormed)

include h hd

/-! ### Changing records -/

omit h in
/-- The realm of a tenant after one record was put in. -/
theorem full_putRecord (a : kind.Record) {n : String} {tenant : Tenant}
    (htenant : d.tenants[n]? = some tenant) :
    (d.putRecord a).full n tenant
      = Snapshot.modifyMembers (Snapshot.replaceFirst a) (d.full n tenant) := by
  refine Directory.full_eq_modifyMembers rfl ?_ fun kind' hkind => ?_
  · rw [Directory.members, Directory.members, ← Snapshot.filterMap_update
      (hd.lists n tenant kind htenant) (hd.records kind) (hd.known n tenant kind htenant)]
    exact List.filterMap_congr fun m _ => Directory.getElem?_putRecord a m
  · rw [Directory.members, Directory.members, Directory.records_putRecord_ne hkind]

omit h in
/-- The realm of a tenant after one record was taken out. -/
theorem full_dropRecord (kind : Kind) (n m : String) (tenant : Tenant) :
    (d.dropRecord kind n).full m (tenant.remove kind n)
      = Snapshot.modifyMembers (fun as : List kind.Record => as.filter (name · ≠ n))
        (d.full m tenant) := by
  refine Directory.full_eq_modifyMembers rfl ?_ fun kind' hkind => ?_
  · rw [Directory.members, Directory.members, ← Snapshot.filterMap_drop (hd.records kind) n,
      tenant.members_remove]
    exact List.filterMap_congr fun m _ => Directory.getElem?_dropRecord n m
  · rw [Directory.members, Directory.members, Directory.records_dropRecord_ne hkind,
      tenant.members_remove_ne n hkind]

/-- A record is put into its table and in the place of its copies. -/
theorem put (a : kind.Record) : Mirrors (t.put a) (d.putRecord a) where
  table kind' := by
    rw [Snapshot.put, Snapshot.ofSnapshot_modifyRealms]
    refine Snapshot.forall_modifyTable
      (P := fun k as => ∀ b ∈ as, ((d.putRecord a).records k)[name b]? = some b) ?_ ?_ kind'
    · intro b hb
      rw [Directory.getElem?_putRecord]
      rcases Snapshot.eq_of_mem_upsert (h.unique kind) hb with rfl | ⟨hb, hname⟩
      · rw [if_pos rfl]
      · rw [if_neg (fun heq => hname heq.symm), h.table kind b hb]
    · intro other hother
      rw [Directory.records_putRecord_ne hother]
      exact h.table other
  unique kind' := by
    rw [Snapshot.put, Snapshot.ofSnapshot_modifyRealms]
    exact Snapshot.forall_modifyTable (P := fun k as => (as.map name).Nodup)
      (Snapshot.nodup_upsert (h.unique kind) a) (fun other _ => h.unique other) kind'
  held kind' := by
    rw [Snapshot.put, Snapshot.ofSnapshot_modifyRealms]
    refine Snapshot.forall_modifyTable
      (P := fun k as => ∀ n b, ((d.putRecord a).records k)[n]? = some b → b ∈ as ∨
        ∃ (r : String) (tenant : Tenant), d.tenants[r]? = some tenant ∧ n ∈ tenant.members k)
      ?_ ?_ kind'
    · intro n b hb
      rw [Directory.getElem?_putRecord] at hb
      split_ifs at hb with hname
      · cases hb
        exact .inl (Snapshot.mem_upsert_self _ _)
      · refine (h.held kind n b hb).imp_left fun hmem => Snapshot.mem_upsert_of_ne hmem ?_
        rw [hd.records kind n b hb]
        exact fun heq => hname heq.symm
    · intro other hother
      rw [Directory.records_putRecord_ne hother]
      exact h.held other
  realm n := by
    rw [Snapshot.put, Snapshot.realm?_modifyRealms fun r => Snapshot.name_modifyMembers _ r,
      Snapshot.realm?_modifyTable, h.realm, Option.map_map]
    show _ = (d.tenants[n]?).map ((d.putRecord a).full n)
    rcases htenant : d.tenants[n]? with _ | tenant
    · rfl
    · exact congrArg some (full_putRecord hd a htenant).symm
  different := by
    rw [Snapshot.put, Snapshot.names_modifyRealms fun r => Snapshot.name_modifyMembers _ r,
      Snapshot.realms_modifyTable]
    exact h.different

/-- A record is taken out with all its copies. -/
theorem drop (kind : Kind) (n : String) :
    Mirrors ((t.modifyTable fun as : List kind.Record => as.filter (name · ≠ n)).modifyRealms
      (Snapshot.modifyMembers fun as : List kind.Record => as.filter (name · ≠ n)))
      (d.dropRecord kind n) where
  table kind' := by
    rw [Snapshot.ofSnapshot_modifyRealms]
    refine Snapshot.forall_modifyTable
      (P := fun k as => ∀ b ∈ as, ((d.dropRecord kind n).records k)[name b]? = some b) ?_ ?_ kind'
    · intro b hb
      rw [List.mem_filter, decide_eq_true_eq] at hb
      rw [Directory.getElem?_dropRecord, if_neg (fun heq => hb.2 heq.symm), h.table kind b hb.1]
    · intro other hother
      rw [Directory.records_dropRecord_ne hother]
      exact h.table other
  unique kind' := by
    rw [Snapshot.ofSnapshot_modifyRealms]
    exact Snapshot.forall_modifyTable (P := fun k as => (as.map name).Nodup)
      ((h.unique kind).sublist (List.filter_sublist.map name)) (fun other _ => h.unique other) kind'
  held kind' := by
    have htenant : ∀ (r : String) (tenant : Tenant), d.tenants[r]? = some tenant →
        (d.dropRecord kind n).tenants[r]? = some (tenant.remove kind n) := by
      intro r tenant heq
      rw [Directory.getElem?_tenants_dropRecord, heq]
      rfl
    rw [Snapshot.ofSnapshot_modifyRealms]
    refine Snapshot.forall_modifyTable
      (P := fun k as => ∀ m b, ((d.dropRecord kind n).records k)[m]? = some b → b ∈ as ∨
        ∃ (r : String) (tenant : Tenant), (d.dropRecord kind n).tenants[r]? = some tenant ∧
          m ∈ tenant.members k) ?_ ?_ kind'
    · intro m b hb
      rw [Directory.getElem?_dropRecord] at hb
      split_ifs at hb with hname
      rcases h.held kind m b hb with hmem | ⟨r, tenant, heq, hm⟩
      · refine .inl (List.mem_filter.mpr ⟨hmem, ?_⟩)
        rw [decide_eq_true_eq, hd.records kind m b hb]
        exact fun heq => hname heq.symm
      · refine .inr ⟨r, _, htenant r tenant heq, ?_⟩
        rw [tenant.members_remove, List.mem_filter, decide_eq_true_eq]
        exact ⟨hm, fun heq => hname heq.symm⟩
    · intro other hother m b hb
      rw [Directory.records_dropRecord_ne hother] at hb
      refine (h.held other m b hb).imp_right fun ⟨r, tenant, heq, hm⟩ =>
        ⟨r, _, htenant r tenant heq, ?_⟩
      rwa [tenant.members_remove_ne n hother]
  realm m := by
    rw [Snapshot.realm?_modifyRealms fun r => Snapshot.name_modifyMembers _ r,
      Snapshot.realm?_modifyTable, h.realm, Directory.getElem?_tenants_dropRecord]
    rw [Option.map_map, Option.map_map]
    congr 1
    exact funext fun tenant => (full_dropRecord hd kind n m tenant).symm
  different := by
    rw [Snapshot.names_modifyRealms fun r => Snapshot.name_modifyMembers _ r,
      Snapshot.realms_modifyTable]
    exact h.different

/-! ### Changing lists of realms -/

omit hd in
/-- One realm is changed as its tenant is, and no record loses its last copy. -/
theorem changeRealm {r : String} {tenant tenant' : Tenant} (htenant : d.tenants[r]? = some tenant)
    {f : Realm → Realm} (hf : ∀ realm, (f realm).name = realm.name)
    (hrealm : d.full r tenant' = f (d.full r tenant))
    (hheld : ∀ kind, ∀ n ∈ tenant.members kind, n ∉ tenant'.members kind →
      ∀ a, (d.records kind)[n]? = some a → a ∈ Principal.ofSnapshot t) :
    Mirrors (t.modifyRealm r f) (d.putTenant r tenant') where
  table kind a ha := by
    rw [Snapshot.ofSnapshot_modifyRealm] at ha
    exact h.table kind a ha
  unique kind := by
    rw [Snapshot.ofSnapshot_modifyRealm]
    exact h.unique kind
  held kind n a ha := by
    rw [Snapshot.ofSnapshot_modifyRealm]
    rcases h.held kind n a ha with hmem | ⟨m, other, hother, hn⟩
    · exact .inl hmem
    by_cases hm : r = m
    · subst hm
      rw [htenant] at hother
      cases hother
      by_cases hn' : n ∈ tenant'.members kind
      · refine .inr ⟨r, tenant', ?_, hn'⟩
        rw [Directory.getElem?_putTenant, if_pos rfl]
      · exact .inl (hheld kind n hn hn' a ha)
    · refine .inr ⟨m, other, ?_, hn⟩
      rw [Directory.getElem?_putTenant, if_neg hm, hother]
  realm m := by
    rw [Snapshot.realm?_modifyRealm hf, Directory.getElem?_putTenant]
    by_cases hm : m = r
    · subst hm
      rw [if_pos rfl, if_pos rfl, h.realm, htenant]
      exact congrArg some hrealm.symm
    · rw [if_neg hm, if_neg fun heq => hm heq.symm, h.realm]
      rfl
  different := by
    rw [Snapshot.names_modifyRealm hf]
    exact h.different

omit h in
theorem names_members {n : String} {tenant : Tenant} (htenant : d.tenants[n]? = some tenant)
    (kind : Kind) : (d.members kind tenant).map name = tenant.members kind :=
  Snapshot.names_filterMap (hd.records kind) (hd.known n tenant kind htenant)

/-- A record becomes a member of a realm. -/
theorem add {r n : String} {tenant : Tenant} (htenant : d.tenants[r]? = some tenant)
    {a : kind.Record} (ha : (d.records kind)[n]? = some a) :
    Mirrors (t.modifyRealm r (Snapshot.modifyMembers (Snapshot.upsert a)))
      (d.putTenant r (tenant.add kind n)) := by
  have hname := hd.records kind n a ha
  have hnames := names_members hd htenant kind
  refine h.changeRealm htenant (fun realm => Snapshot.name_modifyMembers _ realm) ?_
    fun kind' m hm hm' => absurd ?_ hm'
  · refine Directory.full_eq_modifyMembers (tenant.realm_add n r) ?_ fun kind' hkind => ?_
    · rw [Directory.members, tenant.members_add]
      split_ifs with hn
      · have hnodup : ((d.members kind tenant).map name).Nodup := by
          rw [hnames]
          exact hd.lists r tenant kind htenant
        exact (Snapshot.upsert_of_mem hnodup (List.mem_filterMap.mpr ⟨n, hn, ha⟩)).symm
      · rw [Snapshot.upsert_of_not_mem (by rwa [hnames, hname]), Directory.members,
          List.filterMap_append]
        simp [ha]
    · rw [Directory.members, Directory.members, tenant.members_add_ne n hkind]
  · by_cases hkind : kind' = kind
    · subst hkind
      rw [tenant.members_add]
      split_ifs
      · exact hm
      · exact List.mem_append_left _ hm
    · rwa [tenant.members_add_ne n hkind]

/-! ### Changing tables -/

omit hd in
/-- A table may take in records that are known. -/
theorem changeTable {f : List kind.Record → List kind.Record}
    (hsub : Principal.ofSnapshot t ⊆ f (Principal.ofSnapshot t))
    (hunique : ((f (Principal.ofSnapshot t)).map name).Nodup)
    (hknown : ∀ a ∈ f (Principal.ofSnapshot t), (d.records kind)[name a]? = some a) :
    Mirrors (t.modifyTable f) d where
  table := Snapshot.forall_modifyTable
    (P := fun k as => ∀ a ∈ as, (d.records k)[name a]? = some a) hknown fun other _ => h.table other
  unique := Snapshot.forall_modifyTable (P := fun k as => (as.map name).Nodup) hunique
    fun other _ => h.unique other
  held := Snapshot.forall_modifyTable
    (P := fun k as => ∀ n a, (d.records k)[n]? = some a → a ∈ as ∨
      ∃ (r : String) (tenant : Tenant), d.tenants[r]? = some tenant ∧ n ∈ tenant.members k)
    (fun n a ha => (h.held kind n a ha).imp_left fun hmem => hsub hmem) fun other _ => h.held other
  realm n := (Snapshot.realm?_modifyTable f n).trans (h.realm n)
  different := by
    rw [Snapshot.realms_modifyTable]
    exact h.different

omit hd in
/-- Records that are known are moved to their table. -/
theorem keepAll {bs : List kind.Record}
    (hknown : ∀ b ∈ bs, (d.records kind)[name b]? = some b) :
    Mirrors (t.modifyTable fun as => bs.foldl Snapshot.addMissing as) d := by
  refine h.changeTable (Snapshot.subset_foldl_addMissing bs _)
    (Snapshot.nodup_foldl_addMissing (h.unique kind) bs) fun a ha => ?_
  rcases Snapshot.mem_of_mem_foldl_addMissing ha with ha | ha
  · exact h.table kind a ha
  · exact hknown a ha

omit hd in
/-- Records that were moved to their table are there. -/
theorem mem_keepAll {bs : List kind.Record}
    (hknown : ∀ b ∈ bs, (d.records kind)[name b]? = some b) {b : kind.Record} (hb : b ∈ bs) :
    b ∈ Principal.ofSnapshot (t.modifyTable fun as => bs.foldl Snapshot.addMissing as) := by
  have hname : name b ∈ (Principal.ofSnapshot (α := kind.Record)
      (t.modifyTable fun as => bs.foldl Snapshot.addMissing as)).map name := by
    rw [Snapshot.modifyTable, Kind.ofSnapshot_inSnapshot]
    exact Snapshot.name_mem_foldl_addMissing hb
  obtain ⟨a, ha, heq⟩ := List.mem_map.mp hname
  have hsame := (h.keepAll hknown).table kind a ha
  rw [heq, hknown b hb] at hsame
  cases hsame
  exact ha

/-- A record ceases to be a member of a realm, and its table keeps it. -/
theorem remove {r n : String} {tenant : Tenant} (htenant : d.tenants[r]? = some tenant)
    {a : kind.Record} (ha : (d.records kind)[n]? = some a) :
    Mirrors ((t.modifyRealm r (Snapshot.modifyMembers fun as : List kind.Record =>
        as.filter (name · ≠ n))).modifyTable fun as => Snapshot.addMissing as a)
      (d.putTenant r (tenant.remove kind n)) := by
  have hknown : ∀ b ∈ [a], (d.records kind)[name b]? = some b := by
    intro b hb
    rw [List.mem_singleton.mp hb, hd.records kind n a ha, ha]
  have hcommute : (t.modifyRealm r (Snapshot.modifyMembers fun as : List kind.Record =>
        as.filter (name · ≠ n))).modifyTable (fun as => Snapshot.addMissing as a)
      = (t.modifyTable fun as => [a].foldl Snapshot.addMissing as).modifyRealm r
        (Snapshot.modifyMembers fun as : List kind.Record => as.filter (name · ≠ n)) := by
    cases kind <;> rfl
  rw [hcommute]
  refine (h.keepAll hknown).changeRealm htenant (fun realm => Snapshot.name_modifyMembers _ realm)
    ?_ fun kind' m hm hm' b hb => ?_
  · refine Directory.full_eq_modifyMembers rfl ?_ fun kind' hkind => ?_
    · rw [Directory.members, Directory.members, ← Snapshot.filterMap_drop (hd.records kind) n,
        tenant.members_remove]
      refine List.filterMap_congr ?_
      intro m hm
      rw [if_neg]
      rintro rfl
      simp at hm
    · rw [Directory.members, Directory.members, tenant.members_remove_ne n hkind]
  · -- the only name that leaves the list is that of the record
    by_cases hkind : kind' = kind
    · subst hkind
      rw [tenant.members_remove, List.mem_filter, decide_eq_true_eq, not_and_not_right] at hm'
      obtain rfl := hm' hm
      rw [ha] at hb
      cases hb
      exact h.mem_keepAll hknown (List.mem_singleton_self _)
    · rw [tenant.members_remove_ne n hkind] at hm'
      exact absurd hm hm'

/-! ### Realms -/

omit hd in
/-- A realm whose members all have their place in a table can be removed. -/
theorem dropRealm {n : String} {tenant : Tenant} (htenant : d.tenants[n]? = some tenant)
    (hheld : ∀ kind, ∀ m ∈ tenant.members kind, ∀ a, (d.records kind)[m]? = some a →
      a ∈ Principal.ofSnapshot t) :
    Mirrors { t with realms := t.realms.eraseP (·.name = n) } (d.dropTenant n) where
  table kind a ha := by
    refine h.table kind a ?_
    cases kind <;> exact ha
  unique kind := by
    have hunique := h.unique kind
    cases kind <;> exact hunique
  held kind m a ha := by
    have hplace : a ∈ Principal.ofSnapshot t ∨ ∃ (r : String) (other : Tenant),
        (d.dropTenant n).tenants[r]? = some other ∧ m ∈ other.members kind := by
      rcases h.held kind m a ha with hmem | ⟨r, other, hother, hm⟩
      · exact .inl hmem
      by_cases hr : n = r
      · subst hr
        rw [htenant] at hother
        cases hother
        exact .inl (hheld kind m hm a ha)
      · refine .inr ⟨r, other, ?_, hm⟩
        rw [Directory.getElem?_dropTenant, if_neg hr, hother]
    cases kind <;> exact hplace
  realm m := by
    rw [Directory.getElem?_dropTenant]
    have hfind := Snapshot.find?_eraseP h.different n m
    show (t.realms.eraseP (·.name = n)).find? (·.name = m) = _
    rw [hfind]
    by_cases hm : m = n
    · rw [if_pos hm, if_pos hm.symm]
      rfl
    · rw [if_neg hm, if_neg fun heq => hm heq.symm]
      exact h.realm m
  different := h.different.sublist (List.eraseP_sublist.map Realm.name)

omit hd in
/-- A new realm is put behind the others. -/
theorem newRealm {r : Realm} {tenant : Tenant} (hnew : d.tenants[r.name]? = none)
    (hrealm : r = d.full r.name tenant) :
    Mirrors { t with realms := t.realms ++ [r] } (d.putTenant r.name tenant) where
  table kind a ha := by
    refine h.table kind a ?_
    cases kind <;> exact ha
  unique kind := by
    have hunique := h.unique kind
    cases kind <;> exact hunique
  held kind m a ha := by
    have hplace : a ∈ Principal.ofSnapshot t ∨ ∃ (r' : String) (other : Tenant),
        (d.putTenant r.name tenant).tenants[r']? = some other ∧ m ∈ other.members kind := by
      refine (h.held kind m a ha).imp_right fun ⟨r', other, hother, hm⟩ => ⟨r', other, ?_, hm⟩
      rw [Directory.getElem?_putTenant, if_neg, hother]
      rintro rfl
      rw [hnew] at hother
      cases hother
    cases kind <;> exact hplace
  realm m := by
    have hnone := h.realm r.name
    rw [hnew] at hnone
    have hm := h.realm m
    rw [Directory.getElem?_putTenant]
    show (t.realms ++ [r]).find? (·.name = m) = _
    rw [List.find?_append]
    by_cases heq : r.name = m
    · subst heq
      rw [if_pos rfl]
      rw [Snapshot.realm?] at hnone
      rw [hnone]
      rw [List.find?_cons_of_pos (by simp)]
      exact congrArg some hrealm
    · rw [if_neg heq, List.find?_cons_of_neg (by simp [heq]), List.find?_nil, Option.or_none]
      exact hm
  different := by
    show ((t.realms ++ [r]).map Realm.name).Nodup
    rw [List.map_append, List.nodup_append]
    refine ⟨h.different, List.nodup_singleton _, fun m hm m' hm' heq => ?_⟩
    obtain ⟨r', hr', rfl⟩ := List.mem_map.mp hm
    have hfound := Snapshot.realm?_of_mem h.different hr'
    rw [h.realm, heq, List.mem_singleton.mp hm', hnew] at hfound
    cases hfound

omit hd in
/-- The expirations of a realm are changed. -/
theorem updateRealm {n : String} {tenant : Tenant} (htenant : d.tenants[n]? = some tenant)
    (token refresh : Int64) :
    Mirrors (t.modifyRealm n fun r =>
        { r with tokenExpiration := token, refreshExpiration := refresh })
      (d.putTenant n { tenant with tokenExpiration := token, refreshExpiration := refresh }) :=
  h.changeRealm htenant (fun _ => rfl) rfl fun _ _ hm hm' => absurd hm hm'

/-- A record that comes with a new realm is new, or it is the one that is known. -/
theorem putTable {a : kind.Record} (ha : ∀ b, (d.records kind)[name a]? = some b → b = a) :
    Mirrors (t.modifyTable (Snapshot.upsert a)) (d.putRecord a) where
  table kind' b hb := by
    have hput := (h.put hd a).table kind' b
    rw [Snapshot.put, Snapshot.ofSnapshot_modifyRealms] at hput
    exact hput hb
  unique kind' := by
    have hput := (h.put hd a).unique kind'
    rwa [Snapshot.put, Snapshot.ofSnapshot_modifyRealms] at hput
  held kind' n b hb := by
    have hput := (h.put hd a).held kind' n b hb
    rwa [Snapshot.put, Snapshot.ofSnapshot_modifyRealms] at hput
  realm n := by
    rw [Snapshot.realm?_modifyTable, h.realm]
    show _ = (d.tenants[n]?).map ((d.putRecord a).full n)
    rcases htenant : d.tenants[n]? with _ | tenant
    · rfl
    refine congrArg some (Kind.realm_ext rfl fun kind' => ?_)
    rw [Directory.ofRealm_full, Directory.ofRealm_full]
    refine List.filterMap_congr ?_
    intro m hm
    by_cases hkind : kind' = kind
    · subst hkind
      rw [Directory.getElem?_putRecord]
      split_ifs with hname
      · obtain ⟨b, hb⟩ := hd.known n tenant kind' htenant m hm
        rw [hb, ha b (hname ▸ hb)]
      · rfl
    · rw [Directory.records_putRecord_ne hkind]
  different := by
    rw [Snapshot.realms_modifyTable]
    exact h.different

/-- The records that come with a new realm are put into their table. -/
theorem putTables (kind : Kind) {as : List kind.Record} (hnodup : (as.map name).Nodup)
    (hknown : ∀ a ∈ as, ∀ b, (d.records kind)[name a]? = some b → b = a) :
    Mirrors (t.modifyTable fun bs => as.foldl (fun bs a => Snapshot.upsert a bs) bs)
        (d.putNew (fun _ a => a) kind as) ∧
      (d.putNew (fun _ a => a) kind as).WellFormed := by
  induction as generalizing t d with
  | nil =>
      refine ⟨?_, hd⟩
      have hsame : (t.modifyTable fun bs : List kind.Record => bs) = t := by
        cases kind <;> rfl
      show Mirrors (t.modifyTable fun bs : List kind.Record => bs) d
      rwa [hsame]
  | cons a rest ih =>
      obtain ⟨hfresh, hrest⟩ := List.nodup_cons.mp hnodup
      have hmirrors := h.putTable hd (hknown a (by simp))
      have hgo := ih hmirrors (hd.putRecord a) hrest fun b hb c hc => by
        rw [Directory.getElem?_putRecord, if_neg] at hc
        · exact hknown b (by simp [hb]) c hc
        · exact fun heq => hfresh (heq ▸ List.mem_map_of_mem hb)
      have hsame : (t.modifyTable fun bs => (a :: rest).foldl (fun bs a => Snapshot.upsert a bs) bs)
          = (t.modifyTable (Snapshot.upsert a)).modifyTable fun bs =>
            rest.foldl (fun bs a => Snapshot.upsert a bs) bs := by
        cases kind <;> rfl
      rw [hsame]
      exact hgo

end Mirrors

end IdentityStore
