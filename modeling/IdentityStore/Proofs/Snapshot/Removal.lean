/-
What is removed is gone.

Removing a record takes every copy of its name out of a snapshot, wherever it is.  Removing a
realm, or a member of a realm, takes only the first of its name; so that nothing of the name is
left, there must not have been two.  A snapshot that keeps names apart goes on doing so as long
as no realm is created that lists a name twice, which nothing prevents.
-/
import IdentityStore.Proofs.Snapshot.Turn

namespace IdentityStore

open Principal (name)

namespace Snapshot

variable {t t' : Snapshot} {kind : Kind} {n r : String}

/-! ### Records -/

theorem name_ne_of_mem_withoutRecord {realm : Realm} (h : realm ∈ (t.withoutRecord kind n).realms)
    {a : kind.Record} (ha : a ∈ Principal.ofRealm realm) : name a ≠ n := by
  obtain ⟨old, -, rfl⟩ := mem_realms_withoutRecord.mp h
  rw [modifyMembers, Kind.ofRealm_inRealm, List.mem_filter] at ha
  exact of_decide_eq_true ha.2

/-- A record that was removed is not found, neither in its table nor in a realm. -/
theorem find?_withoutRecord : (t.withoutRecord kind n).find? kind.Record n = none := by
  refine List.find?_eq_none.mpr fun a ha => ?_
  simp only [decide_eq_true_eq]
  rcases mem_copies.mp ha with ha | ⟨realm, hrealm, ha⟩
  · rw [withoutRecord, ofSnapshot_modifyRealms, modifyTable, Kind.ofSnapshot_inSnapshot,
      List.mem_filter] at ha
    exact of_decide_eq_true ha.2
  · exact name_ne_of_mem_withoutRecord hrealm ha

theorem Turns.gone_of_delete (h : t.Turns (.delete kind n) t') :
    t'.get kind.Record n = .error (.notFound kind.entity n) ∧
      ∀ r ∈ t'.realms, ∀ a ∈ Principal.ofRealm (α := kind.Record) r, name a ≠ n := by
  cases h with
  | look h => cases h
  | delete =>
      refine ⟨?_, fun r hr a => name_ne_of_mem_withoutRecord hr⟩
      rw [get, find?_withoutRecord, Kind.entity_record]

/-! ### Realms -/

/-- A realm that was removed is not found if there was only one of its name. -/
theorem realm?_withoutRealm (h : (t.realms.map Realm.name).Nodup) (removed : Realm) :
    (t.withoutRealm n removed).realm? n = none := by
  rw [realm?, realms_withoutRealm, find?_eraseP h, if_pos rfl]

theorem Turns.gone_of_deleteRealm (h : t.Turns (.deleteRealm n) t')
    (hnames : (t.realms.map Realm.name).Nodup) :
    t'.getRealm n = .error (.notFound "Realm" n) := by
  cases h with
  | look h => cases h
  | deleteRealm h => rw [getRealm, realm?_withoutRealm hnames]

/-! ### Members -/

/-- What is left of a list of different names once one was taken out. -/
theorem ofRealm_of_take {realm : Realm} {a : kind.Record} {rest : List kind.Record}
    (hrealm : t.realm? r = some realm) (honce : realm.ListsOnce)
    (htake : takeFirst? n (Principal.ofRealm realm) = some (a, rest)) :
    ∃ realm', ((t.modifyRealm r (modifyMembers fun _ => rest)).modifyTable
        fun as => addMissing as a).realm? r = some realm' ∧
      ∀ b ∈ Principal.ofRealm (α := kind.Record) realm', name b ≠ n := by
  refine ⟨modifyMembers (fun _ => rest) realm, ?_, ?_⟩
  · rw [realm?_modifyTable, realm?_modifyRealm (name_modifyMembers _), if_pos rfl, hrealm]
    rfl
  · intro b hb
    rw [takeFirst?_eq (honce kind)] at htake
    obtain ⟨a', -, heq⟩ := Option.map_eq_some_iff.mp htake
    cases heq
    rw [modifyMembers, Kind.ofRealm_inRealm, List.mem_filter] at hb
    exact of_decide_eq_true hb.2

/-- Of a realm that lists nobody of a name, the name is no member. -/
theorem getFrom_of_not_listed {realm : Realm} (hrealm : t.realm? r = some realm)
    (hnone : ∀ a ∈ Principal.ofRealm (α := kind.Record) realm, name a ≠ n) :
    t.getFrom kind.Record r n = .error (.notMember kind.entity r n) := by
  have hfind : (Principal.ofRealm (α := kind.Record) realm).find? (name · = n) = none := by
    refine List.find?_eq_none.mpr fun a ha => ?_
    simpa using hnone a ha
  rw [getFrom, getAllFrom, getRealm, hrealm]
  simp only [bind, Except.bind, pure, Except.pure, hfind, Kind.entity_record]
  rfl

theorem Turns.gone_of_remove (h : t.Turns (.remove kind r n) t')
    (honce : ∀ realm ∈ t.realms, realm.ListsOnce) :
    t'.getFrom kind.Record r n = .error (.notMember kind.entity r n) ∧
      ∃ as, t'.getAllFrom kind.Record r = .ok as ∧ ∀ a ∈ as, name a ≠ n := by
  cases h with
  | look h => cases h
  | remove hrealm htake =>
      obtain ⟨realm, hfound, hnone⟩ :=
        ofRealm_of_take hrealm (honce _ (mem_of_realm? hrealm)) htake
      refine ⟨getFrom_of_not_listed hfound hnone, Principal.ofRealm realm, ?_, hnone⟩
      rw [getAllFrom, getRealm, hfound]
      rfl

end Snapshot

/-! ### Histories -/

namespace SnapshotRepository

/-- An operation that only reads is answered from the snapshot. -/
theorem perform_look {α : Type} {repository : SnapshotRepository} {op : Operation}
    {x : Except StorageError α} {f : α → Answer}
    (h : repository.snapshot.perform op = do return (f (← x), repository.snapshot)) :
    (repository.perform op).1 = x.map f := by
  rw [perform, h]
  rcases x with e | a <;> rfl

/-- **What is removed is gone**, after whatever operations.  A record that is removed is not
found, and no realm lists it.  A realm that is removed is not found, if the realms had
different names to begin with.  A member that a realm no longer has is not found there and not
listed, if no realm listed anybody twice to begin with, nor any realm that was created. -/
theorem removed_is_gone (repository : SnapshotRepository) (ops : List Operation) :
    let before := repository.after ops
    (∀ kind n, (before.perform (.delete kind n)).1.isOk = true →
      let after := (before.perform (.delete kind n)).2
      (after.perform (.get kind n)).1 = .error (.notFound kind.entity n) ∧
      ∀ r ∈ after.snapshot.realms, ∀ a ∈ Principal.ofRealm (α := kind.Record) r, name a ≠ n) ∧
    ((repository.snapshot.realms.map Realm.name).Nodup →
      ∀ n, (before.perform (.deleteRealm n)).1.isOk = true →
        let after := (before.perform (.deleteRealm n)).2
        (after.perform (.getRealm n)).1 = .error (.notFound "Realm" n)) ∧
    ((∀ r ∈ repository.snapshot.realms, r.ListsOnce) →
      (∀ op ∈ ops, op.ListsOnce) →
      ∀ kind r n, (before.perform (.remove kind r n)).1.isOk = true →
        let after := (before.perform (.remove kind r n)).2
        (after.perform (.getFrom kind r n)).1 = .error (.notMember kind.entity r n) ∧
        ∃ as, (after.perform (.getAllFrom kind r)).1 = .ok (.many kind as) ∧
          ∀ a ∈ as, name a ≠ n) := by
  intro before
  refine ⟨fun kind n hok => ?_, fun hnames n hok => ?_, fun honce hplain kind r n hok => ?_⟩
  · intro after
    obtain ⟨hget, hlists⟩ := (turns_of_isOk hok).gone_of_delete
    refine ⟨?_, hlists⟩
    rw [perform_look rfl, hget]
    rfl
  · intro after
    have hbefore : (before.snapshot.realms.map Realm.name).Nodup :=
      after_induction (P := fun t => (t.realms.map Realm.name).Nodup)
        (fun op _ t t' hturns => hturns.names_nodup) hnames
    rw [perform_look rfl, (turns_of_isOk hok).gone_of_deleteRealm hbefore]
    rfl
  · intro after
    have hbefore : ∀ realm ∈ before.snapshot.realms, realm.ListsOnce := by
      refine after_induction (P := fun t => ∀ realm ∈ t.realms, realm.ListsOnce) ?_ honce
      intro op hop t t' hturns ht
      exact hturns.listsOnce ht (hplain op hop)
    obtain ⟨hfrom, as, has, hnone⟩ := (turns_of_isOk hok).gone_of_remove hbefore
    refine ⟨?_, as, ?_, hnone⟩
    · rw [perform_look rfl, hfrom]
      rfl
    · rw [perform_look rfl, has]
      rfl

/-- The document of a client, with more fields or none. -/
def web (more : String) : String :=
  "\x7b\"name\":\"web\",\"id\":\"11111111111111111111111111111111\"" ++ more ++ "\x7d"

/-- The creation of a realm with clients. -/
def newRealm (n : String) (clients : List String) : Operation :=
  .createRealm (Utf8.ofString
    ("\x7b\"name\":\"" ++ n ++ "\",\"clients\":" ++ Json.writeList clients ++ "\x7d"))

theorem removed_is_gone_acme :
    let before := after { snapshot := {} } [newRealm "acme" [web ""]]
    ((before.perform (.delete .client "web")).1.isOk = true ∧
      ((before.perform (.delete .client "web")).2.perform (.get .client "web")).1
        = .error (.notFound "Client" "web")) ∧
    ((before.perform (.deleteRealm "acme")).1.isOk = true ∧
      ((before.perform (.deleteRealm "acme")).2.perform (.getRealm "acme")).1
        = .error (.notFound "Realm" "acme")) ∧
    ((before.perform (.remove .client "acme" "web")).1.isOk = true ∧
      ((before.perform (.remove .client "acme" "web")).2.perform (.getFrom .client "acme" "web")).1
        = .error (.notMember "Client" "acme" "web")) := by
  intro before
  obtain ⟨hrecord, hrealm, hmember⟩ :=
    removed_is_gone { snapshot := {} } [newRealm "acme" [web ""]]
  have hdelete : (before.perform (.delete .client "web")).1.isOk = true := by decide +kernel
  have hdeleteRealm : (before.perform (.deleteRealm "acme")).1.isOk = true := by decide +kernel
  have hremove : (before.perform (.remove .client "acme" "web")).1.isOk = true := by
    decide +kernel
  have honce : ∀ op ∈ [newRealm "acme" [web ""]], op.ListsOnce := by decide +kernel
  exact ⟨⟨hdelete, (hrecord .client "web" hdelete).1⟩,
    ⟨hdeleteRealm, hrealm List.nodup_nil "acme" hdeleteRealm⟩,
    ⟨hremove, (hmember (by simp) honce .client "acme" "web" hremove).1⟩⟩

/-- A realm may be created that lists a client twice, and when the client is removed from the
realm it is still a member. -/
theorem removed_member_stays :
    ¬ ∀ (ops : List Operation) (kind : Kind) (r n : String),
      let before := after { snapshot := {} } ops
      (before.perform (.remove kind r n)).1.isOk = true →
        ((before.perform (.remove kind r n)).2.perform (.getFrom kind r n)).1
          = .error (.notMember kind.entity r n) := by
  intro h
  have hgone := h [newRealm "acme" [web "", web ""]] .client "acme" "web" (by decide +kernel)
  have hfound : (((after { snapshot := {} } [newRealm "acme" [web "", web ""]]).perform
      (.remove .client "acme" "web")).2.perform (.getFrom .client "acme" "web")).1.isOk = true := by
    decide +kernel
  rw [hgone] at hfound
  cases hfound

end SnapshotRepository

end IdentityStore
