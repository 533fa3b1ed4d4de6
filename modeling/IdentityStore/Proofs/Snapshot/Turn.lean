/-
What an operation makes of a snapshot.

An operation that succeeds either only reads, or it makes one of seven changes: `Turns` says
which, with what is known when the change is made.  Whatever is to be shown of all histories
is shown for these changes, and the histories follow: `SnapshotRepository.after_induction`.

The changes are made of changes of lists, of tables and of realms' members.  What holds of all
lists of a kind is carried through them in `forall_modifyTable` and its relatives.
-/
import IdentityStore.Snapshot.Repository
import IdentityStore.Proofs.Snapshot.Mirror

namespace IdentityStore

open Principal (name)

/-- Holds for the operations that only read. -/
def Operation.isLook : Operation → Bool
  | .getRealm _ | .getRealmWithMembers _ | .get _ _ | .getFrom _ _ _ | .getUserById _ _
  | .getAllFrom _ _ => true
  | _ => false

namespace Snapshot

variable {t t' : Snapshot} {kind : Kind} {op : Operation}

/-! ### Changes -/

/-- The snapshot without any copy of a record. -/
def withoutRecord (kind : Kind) (n : String) (t : Snapshot) : Snapshot :=
  (t.modifyTable fun as : List kind.Record => as.filter (name · ≠ n)).modifyRealms
    (modifyMembers fun as : List kind.Record => as.filter (name · ≠ n))

/-- The snapshot with one more realm, whose members are in their tables. -/
def withRealm (realm : Realm) (t : Snapshot) : Snapshot :=
  let t := t.modifyTable fun clients => realm.clients.foldl (fun as a => upsert a as) clients
  let t := t.modifyTable fun users => realm.users.foldl (fun as a => upsert a as) users
  { t with realms := t.realms ++ [realm] }

/-- The snapshot without the first realm of a name, whose members are in their tables. -/
def withoutRealm (n : String) (removed : Realm) (t : Snapshot) : Snapshot :=
  let t := { t with realms := t.realms.eraseP (·.name = n) }
  let t := t.modifyTable fun clients => removed.clients.foldl addMissing clients
  t.modifyTable fun users => removed.users.foldl addMissing users

/-- The realm with other settings. -/
def withSettings (token refresh : Int64) (r : Realm) : Realm :=
  { r with tokenExpiration := token, refreshExpiration := refresh }

/-- What an operation that succeeds makes of a snapshot. -/
inductive Turns (t : Snapshot) : Operation → Snapshot → Prop
  | look {op : Operation} (h : op.isLook = true) : Turns t op t
  | create {kind : Kind} {payload : List UInt8} (a : kind.Record) :
    Turns t (.create kind payload) (t.put a)
  | update {kind : Kind} {n : String} {payload : List UInt8} (a : kind.Record) :
    Turns t (.update kind n payload) (t.put a)
  | delete {kind : Kind} {n : String} : Turns t (.delete kind n) (t.withoutRecord kind n)
  | add {kind : Kind} {r n : String} {a : kind.Record} (h : t.find? kind.Record n = some a) :
    Turns t (.add kind r n) (t.modifyRealm r (modifyMembers (upsert a)))
  | remove {kind : Kind} {r n : String} {realm : Realm} {a : kind.Record}
    {rest : List kind.Record} (hrealm : t.realm? r = some realm)
    (h : takeFirst? n (Principal.ofRealm realm) = some (a, rest)) :
    Turns t (.remove kind r n) ((t.modifyRealm r (modifyMembers fun _ => rest)).modifyTable
      fun as => addMissing as a)
  | createRealm {payload : List UInt8} {realm : Realm} (h : Realm.ofPayload payload = .ok realm)
    (hnew : t.realm? realm.name = none) : Turns t (.createRealm payload) (t.withRealm realm)
  | updateRealm {n : String} {payload : List UInt8} {token refresh : Int64} :
    Turns t (.updateRealm n payload) (t.modifyRealm n (withSettings token refresh))
  | deleteRealm {n : String} {removed : Realm} (h : t.realm? n = some removed) :
    Turns t (.deleteRealm n) (t.withoutRealm n removed)

/-! ### Operations that succeed -/

theorem get_eq_ok {α : Type} [Principal α] {n : String} {a : α} (h : t.get α n = .ok a) :
    t.find? α n = some a := by
  unfold get at h
  split at h
  · rename_i b hb
    cases h
    exact hb
  · cases h

theorem getRealm_eq_ok {n : String} {r : Realm} (h : t.getRealm n = .ok r) :
    t.realm? n = some r := by
  unfold getRealm at h
  split at h
  · rename_i r' hr
    cases h
    exact hr
  · cases h

theorem turns_create {payload : List UInt8} {a : kind.Record}
    (h : t.create kind.Record payload = .ok (a, t')) : Turns t (.create kind payload) t' := by
  obtain ⟨b, -, h⟩ := Json.exists_of_bind_eq_ok h
  obtain ⟨_, -, h⟩ := Json.exists_of_bind_eq_ok h
  cases h
  exact .create a

theorem turns_update {n : String} {payload : List UInt8} {a : kind.Record}
    (h : t.update kind.Record n payload = .ok (a, t')) : Turns t (.update kind n payload) t' := by
  obtain ⟨b, -, h⟩ := Json.exists_of_bind_eq_ok h
  obtain ⟨stored, -, h⟩ := Json.exists_of_bind_eq_ok h
  dsimp only at h
  split_ifs at h
  all_goals cases h
  exact .update a

theorem turns_delete {n : String} (h : t.delete kind.Record n = .ok t') :
    Turns t (.delete kind n) t' := by
  obtain ⟨a, -, h⟩ := Json.exists_of_bind_eq_ok h
  cases h
  exact .delete

theorem turns_add {r n : String} (h : t.add kind.Record r n = .ok t') :
    Turns t (.add kind r n) t' := by
  obtain ⟨a, ha, h⟩ := Json.exists_of_bind_eq_ok h
  obtain ⟨realm, -, h⟩ := Json.exists_of_bind_eq_ok h
  cases h
  exact .add (get_eq_ok ha)

theorem turns_remove {r n : String} (h : t.remove kind.Record r n = .ok t') :
    Turns t (.remove kind r n) t' := by
  obtain ⟨members, hmembers, h⟩ := Json.exists_of_bind_eq_ok h
  obtain ⟨realm, hrealm, hof⟩ := Json.exists_of_bind_eq_ok hmembers
  cases hof
  split at h
  · cases h
  · rename_i a rest htake
    cases h
    exact .remove (getRealm_eq_ok hrealm) htake

theorem turns_createRealm {payload : List UInt8} {realm : Realm}
    (h : t.createRealm payload = .ok (realm, t')) : Turns t (.createRealm payload) t' := by
  obtain ⟨r, hr, h⟩ := Json.exists_of_bind_eq_ok h
  dsimp only at h
  split_ifs at h with hsome
  · cases h
  · obtain ⟨_, -, h⟩ := Json.exists_of_bind_eq_ok h
    obtain ⟨_, -, h⟩ := Json.exists_of_bind_eq_ok h
    cases h
    exact .createRealm (Json.eq_ok_of_mapError hr) (Option.not_isSome_iff_eq_none.mp hsome)

theorem turns_updateRealm {n : String} {payload : List UInt8} {realm : Realm}
    (h : t.updateRealm n payload = .ok (realm, t')) : Turns t (.updateRealm n payload) t' := by
  obtain ⟨update, -, h⟩ := Json.exists_of_bind_eq_ok h
  dsimp only at h
  split_ifs at h
  · cases h
  · obtain ⟨stored, -, h⟩ := Json.exists_of_bind_eq_ok h
    cases h
    exact .updateRealm

theorem turns_deleteRealm {n : String} (h : t.deleteRealm n = .ok t') :
    Turns t (.deleteRealm n) t' := by
  obtain ⟨removed, hremoved, h⟩ := Json.exists_of_bind_eq_ok h
  cases h
  exact .deleteRealm (getRealm_eq_ok hremoved)

/-- A change that is answered with something has gone well. -/
theorem eq_ok_of_change {α : Type} {x : Except StorageError (α × Snapshot)} {f : α → Answer}
    {answer : Answer} (h : (do let (a, t) ← x; return (f a, t)) = .ok (answer, t')) :
    ∃ a, x = .ok (a, t') := by
  obtain ⟨⟨a, t₁⟩, hx, h⟩ := Json.exists_of_bind_eq_ok h
  cases h
  exact ⟨a, hx⟩

/-- A change to which nothing is answered has gone well. -/
theorem eq_ok_of_removal {x : Except StorageError Snapshot} {answer : Answer}
    (h : (do return (Answer.done, ← x)) = .ok (answer, t')) : x = .ok t' := by
  obtain ⟨t₁, hx, h⟩ := Json.exists_of_bind_eq_ok h
  cases h
  exact hx

/-- **What an operation that succeeds makes of a snapshot.** -/
theorem turns_of_perform {answer : Answer} (h : t.perform op = .ok (answer, t')) :
    Turns t op t' := by
  cases op with
  | createRealm payload =>
      obtain ⟨realm, h⟩ := eq_ok_of_change h
      exact turns_createRealm h
  | updateRealm n payload =>
      obtain ⟨realm, h⟩ := eq_ok_of_change h
      exact turns_updateRealm h
  | create kind payload =>
      obtain ⟨a, h⟩ := eq_ok_of_change h
      exact turns_create h
  | update kind n payload =>
      obtain ⟨a, h⟩ := eq_ok_of_change h
      exact turns_update h
  | deleteRealm n => exact turns_deleteRealm (eq_ok_of_removal h)
  | delete kind n => exact turns_delete (eq_ok_of_removal h)
  | add kind r n => exact turns_add (eq_ok_of_removal h)
  | remove kind r n => exact turns_remove (eq_ok_of_removal h)
  | _ =>
      obtain ⟨a, -, h⟩ := Json.exists_of_bind_eq_ok h
      cases h
      exact .look rfl

/-! ### Tables and realms after a change -/

/-- What is true of changed members of a realm, and of its members of the other kinds, is true
of all its members. -/
theorem forall_modifyMembers {P : (k : Kind) → List k.Record → Prop}
    {f : List kind.Record → List kind.Record} {r : Realm} (hself : P kind (f (Principal.ofRealm r)))
    (hothers : ∀ kind', kind' ≠ kind → P kind' (Principal.ofRealm r)) (kind' : Kind) :
    P kind' (Principal.ofRealm (modifyMembers f r)) := by
  rw [modifyMembers]
  by_cases hkind : kind' = kind
  · subst hkind
    rwa [Kind.ofRealm_inRealm]
  · rw [Kind.ofRealm_inRealm_ne _ _ hkind]
    exact hothers kind' hkind

/-- Of the realms only the one that is found is changed. -/
theorem mem_modifyRealm {n : String} {f : Realm → Realm} {r : Realm}
    (h : r ∈ (t.modifyRealm n f).realms) :
    r ∈ t.realms ∨ ∃ found, t.realm? n = some found ∧ r = f found := by
  have hgo : ∀ rs : List Realm, r ∈ modifyRealm.go n f rs →
      r ∈ rs ∨ ∃ found, rs.find? (·.name = n) = some found ∧ r = f found := by
    intro rs hr
    induction rs with
    | nil => cases hr
    | cons first rest ih =>
        rw [modifyRealm.go] at hr
        split_ifs at hr with hfirst
        · rcases List.mem_cons.mp hr with rfl | hr
          · exact .inr ⟨first, List.find?_cons_of_pos (by simp [hfirst]), rfl⟩
          · exact .inl (List.mem_cons_of_mem first hr)
        · rcases List.mem_cons.mp hr with rfl | hr
          · exact .inl List.mem_cons_self
          · rw [List.find?_cons_of_neg (by simp [hfirst])]
            exact (ih hr).imp_left (List.mem_cons_of_mem first)
  exact hgo t.realms h

theorem mem_copies {a : kind.Record} : a ∈ t.copies kind.Record ↔
    a ∈ Principal.ofSnapshot t ∨ ∃ r ∈ t.realms, a ∈ Principal.ofRealm r := by
  simp [copies]

theorem mem_of_realm? {n : String} {r : Realm} (h : t.realm? n = some r) : r ∈ t.realms :=
  List.mem_of_find?_eq_some h

theorem mem_realms_put {a : kind.Record} {r : Realm} : r ∈ (t.put a).realms ↔
    ∃ r' ∈ t.realms, modifyMembers (replaceFirst a) r' = r := by
  simp [put, modifyRealms]

theorem mem_realms_withoutRecord {n : String} {r : Realm} : r ∈ (t.withoutRecord kind n).realms ↔
    ∃ r' ∈ t.realms,
      modifyMembers (fun as : List kind.Record => as.filter (name · ≠ n)) r' = r := by
  simp [withoutRecord, modifyRealms]

@[simp] theorem realms_withRealm (realm : Realm) :
    (t.withRealm realm).realms = t.realms ++ [realm] := rfl

theorem ofSnapshot_withRealm (kind : Kind) (realm : Realm) :
    Principal.ofSnapshot (α := kind.Record) (t.withRealm realm)
      = (Principal.ofRealm realm).foldl (fun as a => upsert a as) (Principal.ofSnapshot t) := by
  cases kind <;> rfl

@[simp] theorem realms_withoutRealm (n : String) (removed : Realm) :
    (t.withoutRealm n removed).realms = t.realms.eraseP (·.name = n) := rfl

theorem ofSnapshot_withoutRealm (kind : Kind) (n : String) (removed : Realm) :
    Principal.ofSnapshot (α := kind.Record) (t.withoutRealm n removed)
      = (Principal.ofRealm removed).foldl addMissing (Principal.ofSnapshot t) := by
  cases kind <;> rfl

/-! ### Names of realms -/

/-- Realms go on having different names. -/
theorem Turns.names_nodup (h : Turns t op t') (ht : (t.realms.map Realm.name).Nodup) :
    (t'.realms.map Realm.name).Nodup := by
  have hput : ∀ {kind : Kind} (a : kind.Record), ((t.put a).realms.map Realm.name).Nodup := by
    intro kind a
    rw [put, names_modifyRealms (name_modifyMembers _), realms_modifyTable]
    exact ht
  cases h with
  | look => exact ht
  | create a => exact hput a
  | update a => exact hput a
  | delete =>
      rw [withoutRecord, names_modifyRealms (name_modifyMembers _), realms_modifyTable]
      exact ht
  | add =>
      rw [names_modifyRealm (name_modifyMembers _)]
      exact ht
  | remove =>
      rw [realms_modifyTable, names_modifyRealm (name_modifyMembers _)]
      exact ht
  | @createRealm _ realm _ hnew =>
      rw [realms_withRealm, List.map_append, List.nodup_append]
      refine ⟨ht, List.nodup_singleton _, ?_⟩
      intro n hn m hm heq
      obtain ⟨r, hr, rfl⟩ := List.mem_map.mp hn
      have hno := List.find?_eq_none.mp hnew r hr
      simp [heq, List.mem_singleton.mp hm] at hno
  | updateRealm =>
      rw [names_modifyRealm (f := withSettings _ _) fun _ => rfl]
      exact ht
  | deleteRealm =>
      rw [realms_withoutRealm]
      exact ht.sublist (List.eraseP_sublist.map Realm.name)

/-! ### Members of realms -/

end Snapshot

/-- No list of the realm names anybody twice. -/
def Realm.ListsOnce (r : Realm) : Prop :=
  ∀ kind : Kind, ((Principal.ofRealm (α := kind.Record) r).map Principal.name).Nodup

instance (r : Realm) : Decidable r.ListsOnce :=
  decidable_of_iff ((r.clients.map name).Nodup ∧ (r.users.map name).Nodup)
    ⟨fun h kind => match kind with
      | .client => h.1
      | .user => h.2, fun h => ⟨h .client, h .user⟩⟩

/-- The operation creates no realm that lists anybody twice. -/
def Operation.ListsOnce : Operation → Prop
  | .createRealm payload => ∀ r ∈ (Realm.ofPayload payload).toOption, r.ListsOnce
  | _ => True

instance : (op : Operation) → Decidable op.ListsOnce
  | .createRealm payload =>
    inferInstanceAs (Decidable (∀ r ∈ (Realm.ofPayload payload).toOption, r.ListsOnce))
  | .getRealm _ | .getRealmWithMembers _ | .updateRealm _ _ | .deleteRealm _ | .get _ _
  | .getFrom _ _ _ | .getUserById _ _ | .getAllFrom _ _ | .create _ _ | .update _ _ _
  | .delete _ _ | .add _ _ _ | .remove _ _ _ => isTrue trivial

namespace Snapshot

variable {t t' : Snapshot} {kind : Kind} {op : Operation}

/-- A realm goes on listing everybody once if the one list that is changed does. -/
theorem listsOnce_modifyMembers {f : List kind.Record → List kind.Record} {r : Realm}
    (hr : r.ListsOnce) (hf : ((f (Principal.ofRealm r)).map name).Nodup) :
    (modifyMembers f r).ListsOnce :=
  forall_modifyMembers (P := fun _ as => (as.map name).Nodup) hf fun kind' _ => hr kind'

/-- Realms go on listing everybody once, unless a realm is created that does not. -/
theorem Turns.listsOnce (h : Turns t op t') (ht : ∀ r ∈ t.realms, r.ListsOnce)
    (hop : op.ListsOnce) : ∀ r ∈ t'.realms, r.ListsOnce := by
  have hput : ∀ {kind : Kind} (a : kind.Record), ∀ r ∈ (t.put a).realms, r.ListsOnce := by
    intro kind a r hr
    obtain ⟨old, hold, rfl⟩ := mem_realms_put.mp hr
    refine listsOnce_modifyMembers (ht old hold) ?_
    rw [names_replaceFirst]
    exact ht old hold kind
  have hmodify : ∀ {n : String} {f : Realm → Realm},
      (∀ r, t.realm? n = some r → r.ListsOnce → (f r).ListsOnce) →
      ∀ r ∈ (t.modifyRealm n f).realms, r.ListsOnce := by
    intro n f hf r hr
    rcases mem_modifyRealm hr with hr | ⟨found, hfound, rfl⟩
    · exact ht r hr
    · exact hf found hfound (ht found (mem_of_realm? hfound))
  cases h with
  | look => exact ht
  | create a => exact hput a
  | update a => exact hput a
  | @delete kind n =>
      intro r hr
      obtain ⟨old, hold, rfl⟩ := mem_realms_withoutRecord.mp hr
      exact listsOnce_modifyMembers (ht old hold)
        ((ht old hold kind).sublist (List.filter_sublist.map name))
  | add =>
      refine hmodify fun r _ hr => ?_
      exact listsOnce_modifyMembers hr (nodup_upsert (hr _) _)
  | remove hrealm htake =>
      rw [realms_modifyTable]
      refine hmodify fun r hfound hr => ?_
      cases hrealm.symm.trans hfound
      exact listsOnce_modifyMembers hr
        ((hr _).sublist ((takeFirst?_eq_some htake).2.2.map name))
  | @createRealm payload realm hpayload _ =>
      intro r hr
      rw [realms_withRealm] at hr
      rcases List.mem_append.mp hr with hr | hr
      · exact ht r hr
      · rw [List.mem_singleton.mp hr]
        exact hop realm (by rw [hpayload]; rfl)
  | updateRealm => exact hmodify fun r _ hr kind => by cases kind <;> exact hr _
  | deleteRealm => exact fun r hr => ht r (List.mem_of_mem_eraseP hr)

end Snapshot

/-! ### Histories -/

namespace SnapshotRepository

variable {repository : SnapshotRepository} {op : Operation} {ops : List Operation}

/-- The repository after some operations. -/
def after (repository : SnapshotRepository) (ops : List Operation) : SnapshotRepository :=
  ops.foldl (fun repository op => (repository.perform op).2) repository

/-- An operation that fails leaves the snapshot as it is. -/
theorem perform_cases (repository : SnapshotRepository) (op : Operation) :
    ((repository.perform op).1.isOk = false ∧
        (repository.perform op).2.snapshot = repository.snapshot) ∨
      ((repository.perform op).1.isOk = true ∧
        repository.snapshot.Turns op (repository.perform op).2.snapshot) := by
  unfold perform
  rcases h : repository.snapshot.perform op with e | ⟨answer, t⟩
  · exact .inl ⟨rfl, rfl⟩
  · exact .inr ⟨rfl, Snapshot.turns_of_perform h⟩

theorem turns_of_isOk (h : (repository.perform op).1.isOk = true) :
    repository.snapshot.Turns op (repository.perform op).2.snapshot := by
  rcases perform_cases repository op with ⟨hfailed, -⟩ | ⟨-, hturns⟩
  · rw [h] at hfailed
    cases hfailed
  · exact hturns

/-- **What every change leaves true of a snapshot holds after all histories.** -/
theorem after_induction {P : Snapshot → Prop}
    (hturn : ∀ op ∈ ops, ∀ t t' : Snapshot, t.Turns op t' → P t → P t')
    (hstart : P repository.snapshot) : P (repository.after ops).snapshot := by
  induction ops generalizing repository with
  | nil => exact hstart
  | cons op rest ih =>
      refine ih (fun op hop => hturn op (List.mem_cons_of_mem _ hop)) ?_
      rcases perform_cases repository op with ⟨-, hsame⟩ | ⟨-, hturns⟩
      · rw [hsame]
        exact hstart
      · exact hturn op List.mem_cons_self _ _ hturns hstart

end SnapshotRepository

end IdentityStore
