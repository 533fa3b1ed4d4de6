/-
What goes out of a realm stays in the snapshot.

A record may be held by a realm only.  When the realm is removed, or the record's membership
ends, a copy moves to the table unless the table has one of the name.  So no name is lost, and
nothing comes in that was not there: `Retains`.  What is found of a name may then be another
of its copies than before, which is the same record if there was only one.

This asks nothing of the snapshot.  Realms may share their names, and a list may have a record
twice or two of one name.
-/
import IdentityStore.Proofs.Snapshot.Coherence

namespace IdentityStore

open Principal (name)

/-- The realm that is removed, or that loses a member. -/
def Operation.losingRealm? : Operation → Option String
  | .deleteRealm n => some n
  | .remove _ realm _ => some realm
  | _ => none

/-- The realm that is asked, by the operations that read what is in a realm. -/
def Operation.askedRealm? : Operation → Option String
  | .getRealm n | .getRealmWithMembers n => some n
  | .getFrom _ realm _ | .getUserById realm _ | .getAllFrom _ realm => some realm
  | _ => none

namespace Snapshot

variable {t t' : Snapshot} {kind : Kind} {op : Operation} {n m r : String}
  {realm removed : Realm} {a : kind.Record} {rest : List kind.Record}

/-! ### The realm that is found -/

/-- The realm that is found is the first of its name. -/
theorem exists_realms_eq (h : t.realm? n = some realm) :
    realm.name = n ∧ ∃ front back, t.realms = front ++ realm :: back ∧
      ∀ r ∈ front, r.name ≠ n := by
  obtain ⟨hname, front, back, heq, hfront⟩ := List.find?_eq_some_iff_append.mp h
  exact ⟨of_decide_eq_true hname, front, back, heq, fun r hr => by simpa using hfront r hr⟩

/-- A change of the realm that is found leaves all others. -/
theorem mem_realms_modifyRealm (h : t.realm? n = some realm) (f : Realm → Realm) :
    f realm ∈ (t.modifyRealm n f).realms ∧
      ∀ r ∈ t.realms, r = realm ∨ r ∈ (t.modifyRealm n f).realms := by
  obtain ⟨hname, front, back, heq, hfront⟩ := exists_realms_eq h
  have hrealms : (t.modifyRealm n f).realms = front ++ f realm :: back := by
    rw [modifyRealm]
    dsimp only
    rw [heq]
    clear heq
    induction front with
    | nil => rw [List.nil_append, modifyRealm.go, if_pos hname, List.nil_append]
    | cons first front ih =>
        rw [List.cons_append, modifyRealm.go, if_neg (hfront first List.mem_cons_self),
          ih fun r hr => hfront r (List.mem_cons_of_mem first hr), List.cons_append]
  rw [hrealms, heq]
  refine ⟨by simp, fun r hr => ?_⟩
  simp only [List.mem_append, List.mem_cons] at hr ⊢
  tauto

/-- Without the realm that is found, all others are there. -/
theorem mem_realms_withoutRealm (h : t.realm? n = some removed) :
    ∀ r ∈ t.realms, r = removed ∨ r ∈ (t.withoutRealm n removed).realms := by
  obtain ⟨hname, front, back, heq, hfront⟩ := exists_realms_eq h
  rw [realms_withoutRealm, heq, List.eraseP_append_right _ (by simpa using hfront),
    List.eraseP_cons_of_pos (by simp [hname])]
  intro r hr
  simp only [List.mem_append, List.mem_cons] at hr ⊢
  tauto

/-- Without one of its name, realms of other names are found as before. -/
theorem realm?_withoutRealm_of_ne (h : t.realm? n = some removed) (hm : m ≠ n) :
    (t.withoutRealm n removed).realm? m = t.realm? m := by
  obtain ⟨hname, front, back, heq, hfront⟩ := exists_realms_eq h
  have hno : removed.name ≠ m := fun hne => hm (hne.symm.trans hname)
  rw [realm?, realm?, realms_withoutRealm, heq, List.eraseP_append_right _ (by simpa using hfront),
    List.eraseP_cons_of_pos (by simp [hname]), List.find?_append, List.find?_append,
    List.find?_cons_of_neg (by simp [hno])]

/-! ### Names that stay -/

/-- A copy of the name is somewhere in the snapshot. -/
def Holds (t : Snapshot) (kind : Kind) (n : String) : Prop :=
  ∃ a ∈ t.copies kind.Record, name a = n

theorem holds_of_table (ha : a ∈ Principal.ofSnapshot t) : t.Holds kind (name a) :=
  ⟨a, copied_table t kind a ha, rfl⟩

theorem holds_of_member (hrealm : realm ∈ t.realms) (ha : a ∈ Principal.ofRealm realm) :
    t.Holds kind (name a) :=
  ⟨a, copied_members hrealm kind a ha, rfl⟩

theorem find?_isSome_iff : (t.find? kind.Record n).isSome = true ↔ t.Holds kind n := by
  simp [find?, Holds]

/-- All copies were there before, and every name is there still. -/
structure Retains (t t' : Snapshot) (kind : Kind) : Prop where
  copied : t.Copied kind (t'.copies kind.Record)
  holds : ∀ n, t.Holds kind n → t'.Holds kind n

/-- The same names are found. -/
theorem Retains.isSome_find? (h : t.Retains t' kind) (n : String) :
    (t'.find? kind.Record n).isSome = (t.find? kind.Record n).isSome := by
  rw [Bool.eq_iff_iff, find?_isSome_iff, find?_isSome_iff]
  exact ⟨fun ⟨a, ha, hname⟩ => ⟨a, h.copied a ha, hname⟩, h.holds n⟩

/-- Where the copies of a name are one record, the same record is found. -/
theorem Retains.find?_eq (h : t.Retains t' kind)
    (hsame : ∀ a ∈ t.copies kind.Record, ∀ b ∈ t.copies kind.Record, name a = name b → a = b)
    (n : String) : t'.find? kind.Record n = t.find? kind.Record n := by
  have hboth := h.isSome_find? n
  rcases hbefore : t.find? kind.Record n with _ | a
  · rw [hbefore] at hboth
    exact Option.not_isSome_iff_eq_none.mp (by simp [hboth])
  · rw [hbefore] at hboth
    obtain ⟨b, hafter⟩ := Option.isSome_iff_exists.mp hboth
    have ha : name a = n := by simpa using List.find?_some hbefore
    have hb : name b = n := by simpa using List.find?_some hafter
    rw [hafter, hsame b (h.copied b (List.mem_of_find?_eq_some hafter)) a
      (List.mem_of_find?_eq_some hbefore) (hb.trans ha.symm)]

/-- A member is the one that is taken out, or it is left. -/
theorem mem_of_takeFirst? {as : List kind.Record} (h : takeFirst? n as = some (a, rest))
    {b : kind.Record} (hb : b ∈ as) : b = a ∨ b ∈ rest := by
  induction as generalizing rest with
  | nil => cases hb
  | cons c left ih =>
      rw [takeFirst?] at h
      split_ifs at h with hc
      · cases h
        exact List.mem_cons.mp hb
      · obtain ⟨⟨a', rest'⟩, htake, heq⟩ := Option.map_eq_some_iff.mp h
        cases heq
        rcases List.mem_cons.mp hb with rfl | hb
        · exact .inr List.mem_cons_self
        · exact (ih htake hb).imp_right (List.mem_cons_of_mem c)

/-- What is in the tables stays there when a missing record is added. -/
theorem mem_table_addMissing (t : Snapshot) (a : kind.Record) (kind' : Kind) :
    ∀ b ∈ Principal.ofSnapshot (α := kind'.Record) t,
      b ∈ Principal.ofSnapshot (t.modifyTable fun as => addMissing as a) :=
  forall_modifyTable (P := fun k as => ∀ b ∈ Principal.ofSnapshot (α := k.Record) t, b ∈ as)
    (fun _ hb => mem_addMissing.mpr (.inl hb)) (fun _ _ _ hb => hb) kind'

theorem holds_addMissing (t : Snapshot) (a : kind.Record) :
    (t.modifyTable fun as => addMissing as a).Holds kind (name a) := by
  have hmem : name a ∈ ([a].foldl addMissing (Principal.ofSnapshot t)).map name :=
    name_mem_foldl_addMissing (List.mem_singleton_self a)
  obtain ⟨b, hb, hname⟩ := List.mem_map.mp hmem
  rw [← hname]
  refine holds_of_table ?_
  rwa [modifyTable, Kind.ofSnapshot_inSnapshot]

/-- The member that a realm loses is in the table afterwards, or another of its name is. -/
theorem retains_remove (hrealm : t.realm? r = some realm)
    (htake : takeFirst? n (Principal.ofRealm realm) = some (a, rest)) (kind' : Kind) :
    t.Retains ((t.modifyRealm r (modifyMembers fun _ => rest)).modifyTable
      fun as => addMissing as a) kind' := by
  refine ⟨copied_remove hrealm htake kind', ?_⟩
  set between := t.modifyRealm r (modifyMembers fun _ : List kind.Record => rest) with hbetween
  set after := between.modifyTable fun as => addMissing as a with hafter
  obtain ⟨hchanged, hothers⟩ :=
    mem_realms_modifyRealm hrealm (modifyMembers fun _ : List kind.Record => rest)
  rw [← hbetween, ← realms_modifyTable (t := between) fun as => addMissing as a, ← hafter]
    at hchanged hothers
  -- of the changed realm only the member that was taken out is not left
  have hmembers : ∀ k : Kind, ∀ b ∈ Principal.ofRealm (α := k.Record) realm,
      b ∈ Principal.ofRealm (modifyMembers (fun _ : List kind.Record => rest) realm) ∨
        after.Holds k (name b) := by
    refine forall_modifyMembers (P := fun k as =>
      ∀ b ∈ Principal.ofRealm (α := k.Record) realm, b ∈ as ∨ after.Holds k (name b))
      (fun b hb => ?_) (fun k _ b hb => .inl hb)
    rcases mem_of_takeFirst? htake hb with rfl | hleft
    · exact .inr (holds_addMissing between b)
    · exact .inl hleft
  rintro _ ⟨b, hb, rfl⟩
  rcases mem_copies.mp hb with hb | ⟨old, hold, hb⟩
  · refine holds_of_table (mem_table_addMissing between a kind' b ?_)
    rwa [hbetween, ofSnapshot_modifyRealm]
  · rcases hothers old hold with rfl | hkept
    · exact (hmembers kind' b hb).elim (holds_of_member hchanged) id
    · exact holds_of_member hkept hb

/-- The members of a realm that is removed are in the table afterwards, or others of their
names are. -/
theorem retains_withoutRealm (hremoved : t.realm? n = some removed) (kind : Kind) :
    t.Retains (t.withoutRealm n removed) kind := by
  refine ⟨copied_withoutRealm hremoved kind, ?_⟩
  rintro _ ⟨b, hb, rfl⟩
  rcases mem_copies.mp hb with hb | ⟨old, hold, hb⟩
  · refine holds_of_table ?_
    rw [ofSnapshot_withoutRealm]
    exact subset_foldl_addMissing _ _ hb
  rcases mem_realms_withoutRealm hremoved old hold with rfl | hkept
  · have hmem : name b ∈
        ((Principal.ofRealm old).foldl addMissing (Principal.ofSnapshot t)).map name :=
      name_mem_foldl_addMissing hb
    rw [← ofSnapshot_withoutRealm kind n old] at hmem
    obtain ⟨c, hc, hname⟩ := List.mem_map.mp hmem
    rw [← hname]
    exact holds_of_table hc
  · exact holds_of_member hkept hb

theorem Turns.retains (h : t.Turns op t') (hop : op.losingRealm? = some r) (kind : Kind) :
    t.Retains t' kind := by
  cases h with
  | remove hrealm htake => exact retains_remove hrealm htake kind
  | deleteRealm hremoved => exact retains_withoutRealm hremoved kind
  | @look op hlook => cases op <;> cases hlook <;> cases hop
  | _ => cases hop

/-- Realms of other names are found as before. -/
theorem Turns.realm?_of_ne (h : t.Turns op t') (hop : op.losingRealm? = some r) (hm : m ≠ r) :
    t'.realm? m = t.realm? m := by
  cases h with
  | remove =>
      cases hop
      rw [realm?_modifyTable, realm?_modifyRealm (name_modifyMembers _), if_neg hm]
  | deleteRealm hremoved =>
      cases hop
      exact realm?_withoutRealm_of_ne hremoved hm
  | @look op hlook => cases op <;> cases hlook <;> cases hop
  | _ => cases hop

end Snapshot

/-! ### Answers -/

namespace SnapshotRepository

/-- What is read in a realm depends on the realm that is found only. -/
theorem perform_congr_of_realm? {before after : SnapshotRepository} {look : Operation} {r : String}
    (hlook : look.askedRealm? = some r) (h : after.snapshot.realm? r = before.snapshot.realm? r) :
    (after.perform look).1 = (before.perform look).1 := by
  have hrealm : after.snapshot.getRealm r = before.snapshot.getRealm r := by
    rw [Snapshot.getRealm, Snapshot.getRealm, h]
  cases look <;> cases hlook
  all_goals
    rw [perform_look rfl, perform_look rfl]
    simp only [Snapshot.getFrom, Snapshot.getUserById, Snapshot.getAllFrom, hrealm]

/-- The answer to the question for a record. -/
theorem perform_get (repository : SnapshotRepository) (kind : Kind) (n : String) :
    (repository.perform (.get kind n)).1
      = match repository.snapshot.find? kind.Record n with
        | some a => .ok (.one kind a)
        | none => .error (.notFound kind.entity n) := by
  rw [perform_look rfl, Snapshot.get, Kind.entity_record]
  rcases repository.snapshot.find? kind.Record n with _ | a <;> rfl

theorem isOk_perform_get (repository : SnapshotRepository) (kind : Kind) (n : String) :
    (repository.perform (.get kind n)).1.isOk
      = (repository.snapshot.find? kind.Record n).isSome := by
  rw [perform_get]
  rcases repository.snapshot.find? kind.Record n with _ | a <;> rfl

/-- **A realm that is removed, or that loses a member, takes no record with it.**  Whatever the
snapshot holds, the clients and users that are found afterwards have the names of those that
were found before.  If all copies of a name are one record, then the same records are found.
And in realms of other names everything is found as before. -/
theorem realms_lose_no_record (repository : SnapshotRepository) (op : Operation) (r : String)
    (hop : op.losingRealm? = some r) (hok : (repository.perform op).1.isOk = true) :
    let after := (repository.perform op).2
    (∀ kind n, (after.perform (.get kind n)).1.isOk = (repository.perform (.get kind n)).1.isOk) ∧
    (∀ kind : Kind,
      (∀ a ∈ repository.snapshot.copies kind.Record, ∀ b ∈ repository.snapshot.copies kind.Record,
        name a = name b → a = b) →
      ∀ n, (after.perform (.get kind n)).1 = (repository.perform (.get kind n)).1) ∧
    (∀ r', r' ≠ r → ∀ look : Operation, look.askedRealm? = some r' →
      (after.perform look).1 = (repository.perform look).1) := by
  intro after
  have hturns : repository.snapshot.Turns op after.snapshot := turns_of_isOk hok
  refine ⟨fun kind n => ?_, fun kind hsame n => ?_, fun r' hr look hlook => ?_⟩
  · rw [isOk_perform_get, isOk_perform_get, (hturns.retains hop kind).isSome_find?]
  · rw [perform_get, perform_get, (hturns.retains hop kind).find?_eq hsame]
  · exact perform_congr_of_realm? hlook (hturns.realm?_of_ne hop hr)

/-- Two realms that share a client, and of which the first also holds one for itself. -/
def sharingRepository : SnapshotRepository :=
  let web : Client := .confidential .nil "web" "secret"
  let app : Client := .confidential .nil "app" "secret"
  { snapshot := { realms := [⟨"acme", [web, app], [], 0, 0⟩, ⟨"beta", [web], [], 0, 0⟩] } }

theorem realms_lose_no_record_acme :
    let deletion : Operation := .deleteRealm "acme"
    let after := (sharingRepository.perform deletion).2
    deletion.losingRealm? = some "acme" ∧ (sharingRepository.perform deletion).1.isOk = true ∧
      (∀ a ∈ sharingRepository.snapshot.copies Client,
        ∀ b ∈ sharingRepository.snapshot.copies Client, name a = name b → a = b) ∧
      "beta" ≠ "acme" ∧
      (∀ n, (after.perform (.get .client n)).1 = (sharingRepository.perform (.get .client n)).1) ∧
      (after.perform (.getAllFrom .client "beta")).1
        = (sharingRepository.perform (.getAllFrom .client "beta")).1 := by
  intro deletion after
  have hok : (sharingRepository.perform deletion).1.isOk = true := by decide +kernel
  have hcopies : ∀ a ∈ sharingRepository.snapshot.copies Client,
      ∀ b ∈ sharingRepository.snapshot.copies Client, name a = name b → a = b := by decide +kernel
  obtain ⟨-, hsame, hbeta⟩ := realms_lose_no_record sharingRepository deletion "acme" rfl hok
  exact ⟨rfl, hok, hcopies, by decide, hsame .client hcopies,
    hbeta "beta" (by decide) (.getAllFrom .client "beta") rfl⟩

end SnapshotRepository

end IdentityStore
