/-
Every copy of a record is the record.

A snapshot holds a record once for each realm that lists it, and its table may hold it as well.
Storing a record rewrites all of these copies, making it a member copies the record that is
found, and removals only take copies away.  So the copies of a name stay one record, from a
snapshot without records on: `Coherent`.

Creating a realm is the exception.  It stores the members in its payload in their tables, but
leaves the copies that other realms hold.  So the copies part unless the payload has the
records that the other realms have.
-/
import IdentityStore.Proofs.Snapshot.Refinement
import IdentityStore.Proofs.Snapshot.Removal

namespace IdentityStore

open Principal (name)

/-! ### Coherent snapshots -/

namespace Snapshot

variable {t t' : Snapshot} {kind kind' : Kind} {op : Operation}

/-- All copies of a name are one record, and no table and no realm has a name twice. -/
structure Coherent (t : Snapshot) : Prop where
  same : ∀ kind : Kind, ∀ a ∈ t.copies kind.Record, ∀ b ∈ t.copies kind.Record,
    name a = name b → a = b
  table : ∀ kind : Kind, ((Principal.ofSnapshot (α := kind.Record) t).map name).Nodup
  lists : ∀ r ∈ t.realms, r.ListsOnce

theorem coherent_empty : Coherent {} where
  same kind a ha := by cases kind <;> cases ha
  table kind := by cases kind <;> exact List.nodup_nil
  lists := by simp

/-- In a coherent snapshot the record of a name is found, whichever copy is asked for it. -/
theorem Coherent.get_eq (h : t.Coherent) {a : kind.Record} (ha : a ∈ t.copies kind.Record) :
    t.get kind.Record (name a) = .ok a := by
  rw [get, find?]
  rcases hfind : (t.copies kind.Record).find? (name · = name a) with _ | b
  · have hno := List.find?_eq_none.mp hfind a ha
    simp at hno
  · have hname : name b = name a := by simpa using List.find?_some hfind
    rw [h.same kind b (List.mem_of_find?_eq_some hfind) a ha hname]

/-- The record that a realm gives is one that it holds. -/
theorem getFrom_eq_ok {r n : String} {a : kind.Record} (h : t.getFrom kind.Record r n = .ok a) :
    ∃ realm ∈ t.realms, a ∈ Principal.ofRealm realm ∧ name a = n := by
  obtain ⟨as, has, h⟩ := Json.exists_of_bind_eq_ok h
  obtain ⟨realm, hrealm, has⟩ := Json.exists_of_bind_eq_ok has
  cases has
  split at h
  · rename_i b hfind
    cases h
    exact ⟨realm, mem_of_realm? (getRealm_eq_ok hrealm), List.mem_of_find?_eq_some hfind,
      by simpa using List.find?_some hfind⟩
  · cases h

/-! ### Copies after a change -/

/-- All of a list are copies that a snapshot holds. -/
def Copied (t : Snapshot) (kind : Kind) (as : List kind.Record) : Prop :=
  ∀ a ∈ as, a ∈ t.copies kind.Record

theorem copied_table (t : Snapshot) (kind : Kind) : t.Copied kind (Principal.ofSnapshot t) :=
  fun _ ha => mem_copies.mpr (.inl ha)

theorem copied_members {r : Realm} (hr : r ∈ t.realms) (kind : Kind) :
    t.Copied kind (Principal.ofRealm r) := fun _ ha => mem_copies.mpr (.inr ⟨r, hr, ha⟩)

/-- A snapshot whose tables and realms hold copies of another has no others. -/
theorem copied_copies (htable : ∀ kind, t.Copied kind (Principal.ofSnapshot t'))
    (hmembers : ∀ r ∈ t'.realms, ∀ kind, t.Copied kind (Principal.ofRealm r)) (kind : Kind) :
    t.Copied kind (t'.copies kind.Record) := by
  intro a ha
  rcases mem_copies.mp ha with ha | ⟨r, hr, ha⟩
  · exact htable kind a ha
  · exact hmembers r hr kind a ha

/-- A change that brings no record leaves the copies of a name one record. -/
theorem Coherent.of_copied (h : t.Coherent) (hcopied : t.Copied kind (t'.copies kind.Record)) :
    ∀ a ∈ t'.copies kind.Record, ∀ b ∈ t'.copies kind.Record, name a = name b → a = b :=
  fun a ha b hb => h.same kind a (hcopied a ha) b (hcopied b hb)

/-- A change of one realm's members, to copies that are there. -/
theorem copied_modifyRealm {n : String} {f : List kind.Record → List kind.Record}
    (hf : ∀ r, t.realm? n = some r → t.Copied kind (f (Principal.ofRealm r))) :
    ∀ r ∈ (t.modifyRealm n (modifyMembers f)).realms, ∀ kind',
      t.Copied kind' (Principal.ofRealm r) := by
  intro r hr
  rcases mem_modifyRealm hr with hr | ⟨found, hfound, rfl⟩
  · exact copied_members hr
  · exact forall_modifyMembers (P := fun k as => t.Copied k as) (hf found hfound)
      fun other _ => copied_members (mem_of_realm? hfound) other

/-- What is there once a member was taken out of a realm was there before. -/
theorem copied_remove {r n : String} {realm : Realm} {a : kind.Record} {rest : List kind.Record}
    (hrealm : t.realm? r = some realm)
    (htake : takeFirst? n (Principal.ofRealm realm) = some (a, rest)) (kind' : Kind) :
    t.Copied kind' (((t.modifyRealm r (modifyMembers fun _ => rest)).modifyTable
      fun as => addMissing as a).copies kind'.Record) := by
  obtain ⟨ha, -, hrest⟩ := takeFirst?_eq_some htake
  have hlist := copied_members (mem_of_realm? hrealm) kind
  refine copied_copies (fun other => ?_) ?_ kind'
  · refine forall_modifyTable (P := fun k as => t.Copied k as) ?_ (fun k _ => ?_) other
    · rw [ofSnapshot_modifyRealm]
      intro b hb
      rcases mem_addMissing.mp hb with hb | ⟨rfl, -⟩
      · exact copied_table t kind b hb
      · exact hlist b ha
    · rw [ofSnapshot_modifyRealm]
      exact copied_table t k
  · rw [realms_modifyTable]
    exact copied_modifyRealm fun _ _ b hb => hlist b (hrest.subset hb)

/-- What is there once a realm was removed was there before. -/
theorem copied_withoutRealm {n : String} {removed : Realm} (hremoved : t.realm? n = some removed)
    (kind : Kind) : t.Copied kind ((t.withoutRealm n removed).copies kind.Record) := by
  refine copied_copies (fun other a ha => ?_) (fun r hr => ?_) kind
  · rw [ofSnapshot_withoutRealm] at ha
    rcases mem_of_mem_foldl_addMissing ha with ha | ha
    · exact copied_table t other a ha
    · exact copied_members (mem_of_realm? hremoved) other a ha
  · exact copied_members (List.mem_of_mem_eraseP hr)

/-- What is found after a record was put in is that record, or has another name. -/
theorem Coherent.mem_copies_put (h : t.Coherent) {a b : kind.Record}
    (hb : b ∈ (t.put a).copies kind.Record) :
    b = a ∨ (b ∈ t.copies kind.Record ∧ name b ≠ name a) := by
  rcases mem_copies.mp hb with hb | ⟨r, hr, hb⟩
  · rw [put, ofSnapshot_modifyRealms, modifyTable, Kind.ofSnapshot_inSnapshot] at hb
    exact (eq_of_mem_upsert (h.table kind) hb).imp_right
      fun hand => ⟨copied_table t kind b hand.1, hand.2⟩
  · obtain ⟨old, hold, rfl⟩ := mem_realms_put.mp hr
    rw [modifyMembers, Kind.ofRealm_inRealm] at hb
    exact (eq_of_mem_replaceFirst (h.lists old hold kind) hb).imp_right
      fun hand => ⟨copied_members hold kind b hand.1, hand.2⟩

/-- Putting a record in leaves the records of the other kinds. -/
theorem mem_copies_put_ne (hkind : kind' ≠ kind) {a : kind.Record} {b : kind'.Record}
    (hb : b ∈ (t.put a).copies kind'.Record) : b ∈ t.copies kind'.Record := by
  rcases mem_copies.mp hb with hb | ⟨r, hr, hb⟩
  · rw [put, ofSnapshot_modifyRealms, modifyTable, Kind.ofSnapshot_inSnapshot_ne _ _ hkind] at hb
    exact copied_table t kind' b hb
  · obtain ⟨old, hold, rfl⟩ := mem_realms_put.mp hr
    rw [modifyMembers, Kind.ofRealm_inRealm_ne _ _ hkind] at hb
    exact copied_members hold kind' b hb

theorem Coherent.same_put (h : t.Coherent) (a : kind.Record) (kind' : Kind) :
    ∀ b ∈ (t.put a).copies kind'.Record, ∀ c ∈ (t.put a).copies kind'.Record,
      name b = name c → b = c := by
  intro b hb c hc hname
  by_cases hkind : kind' = kind
  · subst hkind
    rcases h.mem_copies_put hb with rfl | ⟨hb, hbname⟩
    · rcases h.mem_copies_put hc with rfl | ⟨hc, hcname⟩
      · rfl
      · exact absurd hname.symm hcname
    · rcases h.mem_copies_put hc with rfl | ⟨hc, -⟩
      · exact absurd hname hbname
      · exact h.same kind' b hb c hc hname
  · exact h.same kind' b (mem_copies_put_ne hkind hb) c (mem_copies_put_ne hkind hc) hname

/-! ### New realms -/

/-- The records have different names, and where a realm lists one of the names, it holds the
same record. -/
def Matches (t : Snapshot) (kind : Kind) (as : List kind.Record) : Prop :=
  (as.map name).Nodup ∧
    ∀ a ∈ as, ∀ r ∈ t.realms, ∀ b ∈ Principal.ofRealm r, name b = name a → b = a

/-- A realm that the operation creates has members that match those of the other realms. -/
def Shares (t : Snapshot) : Operation → Prop
  | .createRealm payload => ∀ r ∈ (Realm.ofPayload payload).toOption,
    t.Matches .client r.clients ∧ t.Matches .user r.users
  | _ => True

instance (t : Snapshot) (kind : Kind) (as : List kind.Record) : Decidable (t.Matches kind as) :=
  inferInstanceAs (Decidable (_ ∧ _))

instance (t : Snapshot) : (op : Operation) → Decidable (t.Shares op)
  | .createRealm payload =>
    inferInstanceAs (Decidable (∀ r ∈ (Realm.ofPayload payload).toOption, _))
  | .getRealm _ | .getRealmWithMembers _ | .updateRealm _ _ | .deleteRealm _ | .get _ _
  | .getFrom _ _ _ | .getUserById _ _ | .getAllFrom _ _ | .create _ _ | .update _ _ _
  | .delete _ _ | .add _ _ _ | .remove _ _ _ => isTrue trivial

theorem Shares.matches {payload : List UInt8} {r : Realm} (h : t.Shares (.createRealm payload))
    (hr : Realm.ofPayload payload = .ok r) (kind : Kind) :
    t.Matches kind (Principal.ofRealm r) := by
  have hboth := h r (by rw [hr]; rfl)
  cases kind with
  | client => exact hboth.1
  | user => exact hboth.2

theorem Shares.listsOnce (h : t.Shares op) : op.ListsOnce := by
  cases op with
  | createRealm payload =>
      intro r hr kind
      obtain ⟨hclients, husers⟩ := h r hr
      cases kind with
      | client => exact hclients.1
      | user => exact husers.1
  | _ => trivial

/-- What is found beside a new realm is one of its members, or agrees with them. -/
theorem Coherent.mem_copies_withRealm (h : t.Coherent) {realm : Realm} {b : kind.Record}
    (hmatches : t.Matches kind (Principal.ofRealm realm))
    (hb : b ∈ (t.withRealm realm).copies kind.Record) :
    b ∈ Principal.ofRealm realm ∨
      (b ∈ t.copies kind.Record ∧ ∀ a ∈ Principal.ofRealm realm, name b = name a → b = a) := by
  rcases mem_copies.mp hb with hb | ⟨r, hr, hb⟩
  · rw [ofSnapshot_withRealm] at hb
    rcases eq_of_mem_foldl_upsert (h.table kind) hb with hb | ⟨hb, hfresh⟩
    · exact .inl hb
    · refine .inr ⟨copied_table t kind b hb, fun a ha hname => absurd ?_ hfresh⟩
      rw [hname]
      exact List.mem_map_of_mem ha
  · rw [realms_withRealm] at hr
    rcases List.mem_append.mp hr with hr | hr
    · exact .inr ⟨copied_members hr kind b hb, fun a ha => hmatches.2 a ha r hr b hb⟩
    · rw [List.mem_singleton.mp hr] at hb
      exact .inl hb

theorem Coherent.same_withRealm (h : t.Coherent) {realm : Realm}
    (hmatches : t.Matches kind (Principal.ofRealm realm)) :
    ∀ a ∈ (t.withRealm realm).copies kind.Record, ∀ b ∈ (t.withRealm realm).copies kind.Record,
      name a = name b → a = b := by
  intro a ha b hb hname
  rcases h.mem_copies_withRealm hmatches ha with hnew | ⟨hold, hagrees⟩
  · rcases h.mem_copies_withRealm hmatches hb with hb | ⟨-, hagrees⟩
    · exact List.inj_on_of_nodup_map hmatches.1 hnew hb hname
    · exact (hagrees a hnew hname.symm).symm
  · rcases h.mem_copies_withRealm hmatches hb with hb | ⟨hb, -⟩
    · exact hagrees b hb hname
    · exact h.same kind a hold b hb hname

/-! ### Every change -/

/-- Every table goes on having every name once. -/
theorem Turns.table_nodup (h : Turns t op t')
    (ht : ∀ kind : Kind, ((Principal.ofSnapshot (α := kind.Record) t).map name).Nodup)
    (kind : Kind) : ((Principal.ofSnapshot (α := kind.Record) t').map name).Nodup := by
  have hmodify : ∀ {t : Snapshot} {kind : Kind} {f : List kind.Record → List kind.Record},
      (∀ kind : Kind, ((Principal.ofSnapshot (α := kind.Record) t).map name).Nodup) →
      ((f (Principal.ofSnapshot t)).map name).Nodup → ∀ kind' : Kind,
        ((Principal.ofSnapshot (α := kind'.Record) (t.modifyTable f)).map name).Nodup :=
    fun ht hf => forall_modifyTable (P := fun _ as => (as.map name).Nodup) hf fun k _ => ht k
  have hput : ∀ {k : Kind} (a : k.Record),
      ((Principal.ofSnapshot (α := kind.Record) (t.put a)).map name).Nodup := by
    intro k a
    rw [put, ofSnapshot_modifyRealms]
    exact hmodify ht (nodup_upsert (ht k) a) kind
  cases h with
  | look => exact ht kind
  | create a => exact hput a
  | update a => exact hput a
  | delete =>
      rw [withoutRecord, ofSnapshot_modifyRealms]
      exact hmodify ht ((ht _).sublist (List.filter_sublist.map name)) kind
  | add =>
      rw [ofSnapshot_modifyRealm]
      exact ht kind
  | remove =>
      refine hmodify (fun k => ?_) (nodup_addMissing ?_ _) kind
      · rw [ofSnapshot_modifyRealm]
        exact ht k
      · rw [ofSnapshot_modifyRealm]
        exact ht _
  | createRealm =>
      rw [ofSnapshot_withRealm]
      exact nodup_foldl_upsert (ht kind) _
  | updateRealm =>
      rw [ofSnapshot_modifyRealm]
      exact ht kind
  | deleteRealm =>
      rw [ofSnapshot_withoutRealm]
      exact nodup_foldl_addMissing (ht kind) _

/-- The copies of a name stay one record. -/
theorem Turns.same (h : Turns t op t') (ht : t.Coherent) (hop : t.Shares op) (kind : Kind) :
    ∀ a ∈ t'.copies kind.Record, ∀ b ∈ t'.copies kind.Record, name a = name b → a = b := by
  cases h with
  | look => exact ht.same kind
  | create a => exact ht.same_put a kind
  | update a => exact ht.same_put a kind
  | @delete kind' n =>
      have hfilter : ∀ {as : List kind'.Record}, t.Copied kind' as →
          t.Copied kind' (as.filter (name · ≠ n)) := fun has a ha => has a (List.mem_filter.mp ha).1
      refine ht.of_copied (copied_copies (fun other => ?_) (fun r hr => ?_) kind)
      · rw [withoutRecord, ofSnapshot_modifyRealms]
        exact forall_modifyTable (P := fun k as => t.Copied k as) (hfilter (copied_table t kind'))
          (fun k _ => copied_table t k) other
      · obtain ⟨old, hold, rfl⟩ := mem_realms_withoutRecord.mp hr
        exact forall_modifyMembers (P := fun k as => t.Copied k as)
          (hfilter (copied_members hold kind')) fun k _ => copied_members hold k
  | @add kind' r n a hfound =>
      have ha : a ∈ t.copies kind'.Record := List.mem_of_find?_eq_some hfound
      refine ht.of_copied (copied_copies (fun other => ?_) (copied_modifyRealm ?_) kind)
      · rw [ofSnapshot_modifyRealm]
        exact copied_table t other
      · intro r hr b hb
        rcases eq_of_mem_upsert (ht.lists r (mem_of_realm? hr) kind') hb with rfl | ⟨hb, -⟩
        · exact ha
        · exact copied_members (mem_of_realm? hr) kind' b hb
  | remove hrealm htake => exact ht.of_copied (copied_remove hrealm htake kind)
  | createRealm hpayload => exact ht.same_withRealm (hop.matches hpayload kind)
  | updateRealm =>
      refine ht.of_copied (copied_copies (fun other => ?_) (fun r hr => ?_) kind)
      · rw [ofSnapshot_modifyRealm]
        exact copied_table t other
      · rcases mem_modifyRealm hr with hr | ⟨found, hfound, rfl⟩
        · exact copied_members hr
        · intro k
          cases k <;> exact copied_members (mem_of_realm? hfound) _
  | deleteRealm hremoved => exact ht.of_copied (copied_withoutRealm hremoved kind)

theorem Turns.coherent (h : Turns t op t') (ht : t.Coherent) (hop : t.Shares op) :
    t'.Coherent where
  same := h.same ht hop
  table := h.table_nodup ht.table
  lists := h.listsOnce ht.lists hop.listsOnce

end Snapshot

/-! ### Histories -/

namespace SnapshotRepository

/-- Each realm that a history creates has members that match those of the realms that are there
when it is created. -/
def Shares : SnapshotRepository → List Operation → Prop
  | _, [] => True
  | repository, op :: rest =>
    ((repository.perform op).1.isOk = true → repository.snapshot.Shares op) ∧
      Shares (repository.perform op).2 rest

instance decidableShares : (repository : SnapshotRepository) → (ops : List Operation) →
    Decidable (repository.Shares ops)
  | _, [] => isTrue trivial
  | repository, op :: rest =>
    have := decidableShares (repository.perform op).2 rest
    inferInstanceAs (Decidable (_ ∧ _))

theorem coherent_after {repository : SnapshotRepository} {ops : List Operation}
    (h : repository.snapshot.Coherent) (hshares : repository.Shares ops) :
    (repository.after ops).snapshot.Coherent := by
  induction ops generalizing repository with
  | nil => exact h
  | cons op rest ih =>
      refine ih ?_ hshares.2
      rcases perform_cases repository op with ⟨-, hsame⟩ | ⟨hok, hturns⟩
      · rw [hsame]
        exact h
      · exact hturns.coherent h (hshares.1 hok)

/-- **Realms hold the records that are found by name**, after whatever operations on a
repository without records, as long as every realm that is created has members that match
those of the other realms. -/
theorem members_are_records (ops : List Operation)
    (hshares : SnapshotRepository.Shares { snapshot := {} } ops) :
    let repository := after { snapshot := {} } ops
    (∀ kind : Kind, ∀ r ∈ repository.snapshot.realms, ∀ a ∈ Principal.ofRealm r,
      (repository.perform (.get kind (name a))).1 = .ok (.one kind a)) ∧
    ∀ kind r n answer, (repository.perform (.getFrom kind r n)).1 = .ok answer →
      (repository.perform (.get kind n)).1 = .ok answer := by
  intro repository
  have hcoherent : repository.snapshot.Coherent := coherent_after Snapshot.coherent_empty hshares
  have hrecord : ∀ kind : Kind, ∀ r ∈ repository.snapshot.realms, ∀ a ∈ Principal.ofRealm r,
      (repository.perform (.get kind (name a))).1 = .ok (.one kind a) := by
    intro kind r hr a ha
    rw [perform_look rfl, hcoherent.get_eq (Snapshot.copied_members hr kind a ha)]
    rfl
  refine ⟨hrecord, fun kind r n answer hfrom => ?_⟩
  rw [perform_look (f := .one kind) rfl] at hfrom
  obtain ⟨a, ha, rfl⟩ := Json.exists_of_map_eq_ok hfrom
  obtain ⟨realm, hrealm, hmem, rfl⟩ := Snapshot.getFrom_eq_ok ha
  exact hrecord kind realm hrealm a hmem

theorem members_are_records_acme :
    let ops := [newRealm "acme" [web ""], newRealm "beta" [web ""]]
    let repository := after { snapshot := {} } ops
    SnapshotRepository.Shares { snapshot := {} } ops ∧
      ∀ kind r n answer, (repository.perform (.getFrom kind r n)).1 = .ok answer →
        (repository.perform (.get kind n)).1 = .ok answer := by
  intro ops repository
  have hshares : SnapshotRepository.Shares { snapshot := {} } ops := by decide +kernel
  exact ⟨hshares, (members_are_records ops hshares).2⟩

/-- A second realm may be created with another version of a client that a first one has.  The
first realm goes on holding its own. -/
theorem member_differs_from_record :
    ¬ ∀ (ops : List Operation) (kind : Kind) (r n : String) (answer : Answer),
      let repository := after { snapshot := {} } ops
      (repository.perform (.getFrom kind r n)).1 = .ok answer →
        (repository.perform (.get kind n)).1 = .ok answer := by
  intro h
  let ops := [newRealm "acme" [web ""], newRealm "beta" [web ",\"type\":\"public\""]]
  let t := (after { snapshot := {} } ops).snapshot
  have hmember : (t.getFrom Client "acme" "web").toOption.map Client.isPublic = some false := by
    decide +kernel
  have hrecord : (t.get Client "web").toOption.map Client.isPublic = some true := by
    decide +kernel
  rcases hfrom : t.getFrom Client "acme" "web" with e | a
  · rw [hfrom] at hmember
    cases hmember
  have hsame := h ops .client "acme" "web" (.one .client a) <| by
    rw [perform_look (f := .one .client) rfl]
    exact congrArg (Except.map _) hfrom
  rw [perform_look (f := .one .client) rfl] at hsame
  obtain ⟨b, hget, heq⟩ := Json.exists_of_map_eq_ok hsame
  cases heq
  rw [show t.get Client "web" = .ok a from hget] at hrecord
  rw [hfrom] at hmember
  cases hmember.symm.trans hrecord

end SnapshotRepository

end IdentityStore
