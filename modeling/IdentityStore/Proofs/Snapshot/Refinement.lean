/-
A snapshot answers like the directory that it mirrors.

Operation by operation, what a snapshot answers is what the directory answers, and it
mirrors the directory that is left: `Mirrors.follows_perform`.  A realm is read with its
members, so answers that are about a realm alone are compared without them.  Only where a
realm and a record are both unknown does it tell which one is missed first.

A snapshot checks less than a directory when it creates a realm, and it changes no copies in
other realms.  So payloads are compared that a directory would not refuse for their names,
and that bring no other version of a record that is known: `Snapshot.Comparable`.
-/
import IdentityStore.Snapshot.Repository
import IdentityStore.Proofs.Snapshot.Change

namespace IdentityStore

open Principal (name)

/-! ### Comparing answers -/

/-- What is compared of an answer: a realm that is read or changed alone, without members. -/
def Operation.view : Operation → Answer → Answer
  | .getRealm _, .realm r => .realm r.withoutMembers
  | .updateRealm _ _, .realm r => .realm r.withoutMembers
  | _, answer => answer

/-- Holds for answers that differ at most in members that are not compared. -/
def Operation.Same (op : Operation) (a b : Answer) : Prop := op.view a = op.view b

namespace Snapshot

/-- Holds for members of a new realm that have different names, hold no floating numbers,
and are the records that are known where they have their names and identifiers. -/
def Suits (t : Snapshot) (kind : Kind) (as : List kind.Record) : Prop :=
  (as.map name).Nodup ∧ ∀ a ∈ as, kind.isExact a = true ∧
    ∀ b ∈ t.find? kind.Record (name a), Principal.id b = Principal.id a → b = a

/-- Holds for operations that a snapshot treats like a keyed store: records come as texts,
and new realms with names that realms may have and with members that suit. -/
def Comparable (t : Snapshot) : Operation → Prop
  | .createRealm payload => ∀ r ∈ (Realm.ofPayload payload).toOption,
    isRealmName r.name = true ∧ t.Suits .client r.clients ∧ t.Suits .user r.users
  | .create _ payload | .update _ _ payload => (Utf8.decode payload).isOk = true
  | _ => True

instance (kind : Kind) : DecidableEq kind.Record :=
  match kind with
  | .client => inferInstanceAs (DecidableEq Client)
  | .user => inferInstanceAs (DecidableEq User)

instance (t : Snapshot) (kind : Kind) (as : List kind.Record) : Decidable (t.Suits kind as) :=
  inferInstanceAs (Decidable (_ ∧ _))

instance (t : Snapshot) : (op : Operation) → Decidable (t.Comparable op)
  | .createRealm payload =>
    inferInstanceAs (Decidable (∀ r ∈ (Realm.ofPayload payload).toOption, _))
  | .create _ _ | .update _ _ _ => inferInstanceAs (Decidable (_ = true))
  | .getRealm _ | .getRealmWithMembers _ | .updateRealm _ _ | .deleteRealm _ | .get _ _
  | .getFrom _ _ _ | .getUserById _ _ | .getAllFrom _ _ | .delete _ _ | .add _ _ _
  | .remove _ _ _ => isTrue trivial

/-- Members of new realms that suit hold no floating numbers. -/
theorem Comparable.isExact {t : Snapshot} {op : Operation} (h : t.Comparable op) :
    op.isExact = true := by
  cases op with
  | createRealm payload =>
      rw [Operation.isExact]
      rcases hr : Realm.ofPayload payload with e | r
      · rfl
      obtain ⟨-, hclients, husers⟩ := h r (by rw [hr]; rfl)
      rw [Bool.and_eq_true, List.all_eq_true, List.all_eq_true]
      exact ⟨fun c hc => (hclients.2 c hc).1, fun u hu => (husers.2 u hu).1⟩
  | _ => rfl

end Snapshot

/-- The same error, or results that belong together and a snapshot that mirrors the
directory. -/
inductive Follows {α β : Type} (R : α → β → Prop) :
    Except StorageError (α × Snapshot) → Except StorageError (β × Directory) → Prop
  | ok {a : α} {b : β} {t : Snapshot} {d : Directory} (same : R a b) (mirrors : Mirrors t d) :
    Follows R (.ok (a, t)) (.ok (b, d))
  | error (e : StorageError) : Follows R (.error e) (.error e)

namespace Follows

/-- Results of a change that belong together make answers that do. -/
theorem change {α β : Type} {R : α → β → Prop} {x : Except StorageError (α × Snapshot)}
    {y : Except StorageError (β × Directory)} (h : Follows R x y) {f : α → Answer}
    {g : β → Answer} {op : Operation} (hfg : ∀ a b, R a b → op.view (f a) = op.view (g b)) :
    Follows op.Same (do let (a, t) ← x; return (f a, t)) (Directory.answer g y) := by
  cases h with
  | ok same mirrors => exact .ok (hfg _ _ same) mirrors
  | error e => exact .error e

/-- Nothing is answered to a removal that went well. -/
theorem removal {x : Except StorageError Snapshot}
    {y : Except StorageError (Unit × Directory)}
    (h : Follows (fun _ _ => True) (x.map fun t => ((), t)) y) (op : Operation) :
    Follows op.Same (do return (.done, ← x)) (Directory.answer (fun _ => .done) y) := by
  rcases x with e | t
  · cases h
    exact .error e
  · cases h with
    | ok same mirrors => exact .ok rfl mirrors

end Follows

namespace Mirrors

variable {t : Snapshot} {d : Directory} (h : Mirrors t d) (hd : d.WellFormed)

include h

/-! ### Looking up -/

theorem getRealm_eq (n : String) : t.getRealm n = (d.tenant n).map (d.full n) := by
  rw [Snapshot.getRealm, h.realm, Directory.tenant]
  rcases d.tenants[n]? with _ | tenant <;> rfl

theorem getAllFrom_eq (kind : Kind) (r : String) :
    t.getAllFrom kind.Record r = (d.tenant r).map (d.members kind) := by
  rw [Snapshot.getAllFrom, h.getRealm_eq]
  rcases d.tenant r with e | tenant
  · rfl
  · exact congrArg Except.ok (Directory.ofRealm_full d r tenant kind)

include hd

theorem get_eq (kind : Kind) (n : String) : t.get kind.Record n = d.record kind n := by
  rw [Snapshot.get, h.find?_eq hd, Kind.entity_record, Directory.record]
  rcases (d.records kind)[n]? with _ | a <;> rfl

theorem checkId_eq {kind : Kind} (a : kind.Record) :
    t.checkId a = Directory.checkId ((d.records kind)[name a]?) a := by
  rw [Snapshot.checkId, h.find?_eq hd, Kind.entity_record]
  rcases (d.records kind)[name a]? with _ | b <;> rfl

omit h in
theorem find?_members (kind : Kind) {r : String} {tenant : Tenant}
    (htenant : d.tenant r = .ok tenant) (n : String) : (d.members kind tenant).find? (name · = n)
      = if n ∈ tenant.members kind then (d.records kind)[n]? else none :=
  Snapshot.find?_filterMap (hd.records kind)
    (hd.known r tenant kind (Directory.getElem?_of_tenant htenant)) n

theorem getFrom_eq (kind : Kind) (r n : String) :
    t.getFrom kind.Record r n = d.getFrom kind r n := by
  rw [Snapshot.getFrom, h.getAllFrom_eq, Kind.entity_record, Directory.getFrom]
  rcases htenant : d.tenant r with e | tenant
  · rfl
  have hfind := find?_members hd kind htenant n
  simp only [Except.map, bind, Except.bind]
  rw [hfind]
  by_cases hn : n ∈ tenant.members kind
  · obtain ⟨a, ha⟩ := hd.known r tenant kind (Directory.getElem?_of_tenant htenant) n hn
    rw [if_pos hn, if_pos hn, Directory.record, ha]
    rfl
  · rw [if_neg hn, if_neg hn]
    rfl

omit hd in
theorem getUserById_eq (r : String) (i : Uuid) : t.getUserById r i = d.getUserById r i := by
  have hall := h.getAllFrom_eq .user r
  rw [Snapshot.getUserById, Directory.getUserById]
  rcases htenant : d.tenant r with e | tenant
  · rw [htenant] at hall
    rw [show t.getAllFrom User r = .error e from hall]
    rfl
  · rw [htenant] at hall
    rw [show t.getAllFrom User r = .ok (d.members .user tenant) from hall]
    simp only [bind, Except.bind]
    cases (d.members .user tenant).find? fun u => decide (u.id = i) <;> rfl

/-! ### Changing -/

omit h hd in
theorem ofRequest_eq (kind : Kind) (payload : List UInt8) :
    Snapshot.ofRequest kind.Record payload = Directory.readRecord kind payload := by
  rw [Snapshot.ofRequest, Kind.entity_record]
  rfl

omit h hd in
theorem realmOfRequest_eq (payload : List UInt8) :
    Snapshot.realmOfRequest payload = Directory.readRealm payload := rfl

omit h hd in
theorem exists_text {payload : List UInt8} (htext : (Utf8.decode payload).isOk = true) :
    ∃ text, Utf8.decode payload = .ok text := by
  rcases hdecode : Utf8.decode payload with flaw | text
  · rw [hdecode] at htext
    cases htext
  · exact ⟨text, rfl⟩

theorem follows_create (kind : Kind) {payload : List UInt8} {text : String}
    (htext : Utf8.decode payload = .ok text) :
    Follows Eq (t.create kind.Record payload) (d.create kind payload) := by
  rw [Snapshot.create, Directory.create, ofRequest_eq, Directory.readText, htext]
  rcases Directory.readRecord kind payload with e | a
  · exact .error e
  show Follows Eq (do t.checkId a; pure (a, t.put a))
    (do Directory.checkId ((d.records kind)[name a]?) a; pure (a, d.putRecord a))
  rw [h.checkId_eq hd]
  rcases Directory.checkId ((d.records kind)[name a]?) a with e | u
  · exact .error e
  · exact .ok rfl (h.put hd a)

theorem follows_update (kind : Kind) (n : String) {payload : List UInt8} {text : String}
    (htext : Utf8.decode payload = .ok text) :
    Follows Eq (t.update kind.Record n payload) (d.update kind n payload) := by
  rw [Snapshot.update, Directory.update, ofRequest_eq, Directory.readText, htext, h.get_eq hd,
    Kind.entity_record]
  rcases Directory.readRecord kind payload with e | a
  · exact .error e
  rcases hb : d.record kind n with e | b
  · exact .error e
  have hbn : name b = n := hd.records kind n b (Directory.getElem?_of_record hb)
  simp only [bind, Except.bind, pure, Except.pure, throw, throwThe, MonadExceptOf.throw, hbn]
  by_cases hname : name a = n
  · rw [if_neg (not_not.mpr hname), if_neg (not_not.mpr hname), Directory.checkId]
    by_cases hid : Principal.id a = Principal.id b
    · rw [if_neg (not_not.mpr hid), if_pos hid.symm]
      exact .ok rfl (h.put hd a)
    · rw [if_pos hid, if_neg fun heq => hid heq.symm]
      exact .error _
  · rw [if_pos hname, if_pos hname]
    exact .error _

theorem follows_delete (kind : Kind) (n : String) :
    Follows (fun _ _ => True) ((t.delete kind.Record n).map fun t => ((), t))
      (d.delete kind n) := by
  rw [Snapshot.delete, Directory.delete, h.get_eq hd]
  rcases d.record kind n with e | a
  · exact .error e
  · exact .ok trivial (h.drop hd kind n)

/-- Where the realm or the record is known, the same of them is missed. -/
theorem follows_add (kind : Kind) (r n : String)
    (hknown : d.tenants[r]? ≠ none ∨ (d.records kind)[n]? ≠ none) :
    Follows (fun _ _ => True) ((t.add kind.Record r n).map fun t => ((), t)) (d.add kind r n) := by
  rw [Snapshot.add, Directory.add, h.get_eq hd, h.getRealm_eq, Directory.record, Directory.tenant]
  rcases ha : (d.records kind)[n]? with _ | a
  · rcases htenant : d.tenants[r]? with _ | tenant
    · exact absurd hknown (by simp [ha, htenant])
    · exact .error _
  · rcases htenant : d.tenants[r]? with _ | tenant
    · exact .error _
    · exact .ok trivial (h.add hd htenant ha)

theorem follows_remove (kind : Kind) (r n : String) :
    Follows (fun _ _ => True) ((t.remove kind.Record r n).map fun t => ((), t))
      (d.remove kind r n) := by
  rw [Snapshot.remove, Directory.remove, h.getAllFrom_eq, Kind.entity_record]
  rcases htenant : d.tenant r with e | tenant
  · exact .error e
  have htenant' := Directory.getElem?_of_tenant htenant
  have hfind := find?_members hd kind htenant n
  have hnodup : ((d.members kind tenant).map name).Nodup := by
    rw [names_members hd htenant' kind]
    exact hd.lists r tenant kind htenant'
  simp only [Except.map, bind, Except.bind, Snapshot.takeFirst?_eq hnodup, hfind]
  by_cases hn : n ∈ tenant.members kind
  · obtain ⟨a, ha⟩ := hd.known r tenant kind htenant' n hn
    rw [if_pos hn, if_pos hn, ha]
    have hsame : t.modifyRealm r (Snapshot.modifyMembers fun _ : List kind.Record =>
          (d.members kind tenant).filter (name · ≠ n))
        = t.modifyRealm r (Snapshot.modifyMembers fun as : List kind.Record =>
          as.filter (name · ≠ n)) := by
      refine Snapshot.modifyRealm_congr ?_
      intro realm hrealm
      rw [h.realm, htenant'] at hrealm
      cases hrealm
      rw [Snapshot.modifyMembers, Snapshot.modifyMembers, Directory.ofRealm_full]
    refine .ok trivial ?_
    rw [hsame]
    exact h.remove hd htenant' ha
  · rw [if_neg hn, if_neg hn]
    exact .error _

theorem follows_deleteRealm (n : String) :
    Follows (fun _ _ => True) ((t.deleteRealm n).map fun t => ((), t)) (d.deleteRealm n) := by
  rw [Snapshot.deleteRealm, Directory.deleteRealm, h.getRealm_eq]
  rcases htenant : d.tenant n with e | tenant
  · exact .error e
  have htenant' := Directory.getElem?_of_tenant htenant
  have hknown : ∀ kind, ∀ a ∈ d.members kind tenant, (d.records kind)[name a]? = some a := by
    intro kind a ha
    obtain ⟨m, -, hm⟩ := List.mem_filterMap.mp ha
    rw [hd.records kind m a hm, hm]
  have hclients := h.keepAll (hknown .client)
  have husers := hclients.keepAll (hknown .user)
  refine .ok trivial (husers.dropRealm htenant' fun kind m hm a ha => ?_)
  have hmem : a ∈ d.members kind tenant := List.mem_filterMap.mpr ⟨m, hm, ha⟩
  cases kind with
  | client => exact h.mem_keepAll (hknown .client) hmem
  | user => exact hclients.mem_keepAll (hknown .user) hmem

omit hd in
theorem follows_updateRealm (n : String) (payload : List UInt8) :
    Follows (fun r r' : Realm => r.withoutMembers = r'.withoutMembers) (t.updateRealm n payload)
      (d.updateRealm n payload) := by
  rw [Snapshot.updateRealm, Directory.updateRealm, realmOfRequest_eq, h.getRealm_eq]
  rcases Directory.readRealm payload with e | r
  · exact .error e
  simp only [bind, Except.bind, pure, Except.pure, throw, throwThe, MonadExceptOf.throw]
  by_cases hname : r.name = n
  · rw [if_neg (not_not.mpr hname), if_neg (not_not.mpr hname)]
    rcases htenant : d.tenant n with e | tenant
    · exact .error e
    · exact .ok rfl (h.updateRealm (Directory.getElem?_of_tenant htenant) _ _)
  · rw [if_pos hname, if_pos hname]
    exact .error _

/-- The identifiers of new members are checked alike. -/
theorem forM_checkId_eq {kind : Kind} {as : List kind.Record} (hsuits : t.Suits kind as) :
    as.forM t.checkId
      = Directory.checkNew kind (fun n => (d.records kind)[n]?) [] as := by
  rw [Directory.checkNew_eq_forM hsuits.1 (by simp)]
  congr 1
  funext a
  exact h.checkId_eq hd a

/-- New members that suit and are accepted are new, or they are the records that are known. -/
theorem eq_of_suits {kind : Kind} {as : List kind.Record} (hsuits : t.Suits kind as)
    (hcheck : Directory.checkNew kind (fun n => (d.records kind)[n]?) [] as = .ok ()) :
    ∀ a ∈ as, ∀ b, (d.records kind)[name a]? = some b → b = a := by
  intro a ha b hb
  obtain ⟨-, -, hids⟩ := Directory.of_checkNew hcheck
  have hid := hids a ha
  rw [hb, Directory.checkId] at hid
  split_ifs at hid with heq
  refine (hsuits.2 a ha).2 b ?_ heq
  rw [h.find?_eq hd]
  exact hb

omit h hd in
theorem filterMap_putNew (kind : Kind) {as : List kind.Record} (hnodup : (as.map name).Nodup) :
    ((as.map name).filterMap fun n => ((d.putNew (fun _ a => a) kind as).records kind)[n]?)
      = as := by
  rw [List.filterMap_map]
  refine (List.filterMap_congr fun a ha => ?_).trans List.filterMap_some
  exact Directory.getElem?_putNew_of_mem hnodup ha

omit h hd in
/-- A new realm is its tenant, with the records that came with it. -/
theorem full_newTenant {r : Realm} (hclients : (r.clients.map name).Nodup)
    (husers : (r.users.map name).Nodup) :
    ((d.putNew (fun _ a => a) .client r.clients).putNew (fun _ a => a) .user r.users).full
      r.name (Directory.newTenant r) = r := by
  refine Kind.realm_ext rfl ?_
  intro kind
  rw [Directory.ofRealm_full, Directory.members]
  cases kind with
  | client =>
      rw [Directory.records_putNew_ne _ _ .user (by decide)]
      exact filterMap_putNew .client hclients
  | user => exact filterMap_putNew .user husers

theorem follows_createRealm {payload : List UInt8} (hfits : t.Comparable (.createRealm payload)) :
    Follows Eq (t.createRealm payload) (d.createRealm (fun _ a => a) payload) := by
  rw [Snapshot.createRealm, Directory.createRealm, realmOfRequest_eq]
  rcases hread : Directory.readRealm payload with e | r
  · exact .error e
  obtain ⟨hname, hclients, husers⟩ := hfits r (by
    rw [show Realm.ofPayload payload = .ok r from Json.eq_ok_of_mapError hread]
    rfl)
  have hchecked : checkRealmName r.name = .ok () := by
    rw [checkRealmName, if_pos hname]
  simp only [bind, Except.bind, pure, Except.pure, throw, throwThe, MonadExceptOf.throw, hchecked]
  have hknown := h.realm r.name
  by_cases htenant : (d.tenants[r.name]?).isSome = true
  · rw [if_pos (by rwa [hknown, Option.isSome_map]), if_pos htenant]
    exact .error _
  rw [if_neg (by rwa [hknown, Option.isSome_map]), if_neg htenant,
    h.forM_checkId_eq hd hclients, h.forM_checkId_eq hd husers]
  rcases hcheckedClients : Directory.checkNew .client
    (fun n => (d.records .client)[n]?) [] r.clients with e | u
  · exact .error e
  rcases hcheckedUsers : Directory.checkNew .user
    (fun n => (d.records .user)[n]?) [] r.users with e | u'
  · exact .error e
  obtain ⟨hmirrors, hwell⟩ :=
    h.putTables hd .client hclients.1 (h.eq_of_suits hd hclients hcheckedClients)
  have hsame : (d.putNew (fun _ a => a) .client r.clients).records .user = d.records .user :=
    Directory.records_putNew_ne d _ .client (by decide) r.clients
  obtain ⟨hmirrors, hwell⟩ := hmirrors.putTables hwell .user husers.1 (by
    rw [hsame]
    exact h.eq_of_suits hd husers hcheckedUsers)
  refine .ok rfl (hmirrors.newRealm ?_ ?_)
  · rw [Directory.tenants_putNew, Directory.tenants_putNew]
    simpa using htenant
  · exact (full_newTenant hclients.1 husers.1).symm

/-! ### Operations -/

omit hd in
theorem follows_lookup {α : Type} {x y : Except StorageError α} (hxy : x = y) (f : α → Answer)
    (op : Operation) :
    Follows op.Same (do return (f (← x), t)) (Directory.answer f (d.unchanged y)) := by
  subst hxy
  rcases x with e | a
  · exact .error e
  · exact .ok rfl h

/-- **A snapshot follows the directory that it mirrors.**  Every operation that is comparable
is answered alike and leaves a snapshot that mirrors the directory that is left, unless it is
about a realm and a record that are both unknown. -/
theorem follows_perform {op : Operation} (hfits : t.Comparable op)
    (hknown : ∀ kind r n, op = .add kind r n →
      d.tenants[r]? ≠ none ∨ (d.records kind)[n]? ≠ none) :
    Follows op.Same (t.perform op) (d.perform (fun _ a => a) op) := by
  cases op with
  | getRealm n =>
      rw [Snapshot.perform, Directory.perform, Directory.getRealm, h.getRealm_eq]
      rcases d.tenant n with e | tenant
      · exact .error e
      · exact .ok rfl h
  | getRealmWithMembers n =>
      rw [Snapshot.perform, Directory.perform, Directory.getRealmWithMembers, h.getRealm_eq]
      rcases d.tenant n with e | tenant
      · exact .error e
      · exact .ok rfl h
  | createRealm payload =>
      refine (h.follows_createRealm hd hfits).change ?_
      rintro r _ rfl
      rfl
  | updateRealm n payload =>
      refine (h.follows_updateRealm n payload).change ?_
      intro r r' heq
      exact congrArg Answer.realm heq
  | deleteRealm n => exact (h.follows_deleteRealm hd n).removal _
  | get kind n => exact h.follows_lookup (h.get_eq hd kind n) (.one kind) _
  | getFrom kind r n => exact h.follows_lookup (h.getFrom_eq hd kind r n) (.one kind) _
  | getUserById r i => exact h.follows_lookup (h.getUserById_eq r i) (.one .user) _
  | getAllFrom kind r => exact h.follows_lookup (h.getAllFrom_eq kind r) (.many kind) _
  | create kind payload =>
      obtain ⟨text, htext⟩ := exists_text hfits
      refine (h.follows_create hd kind htext).change ?_
      rintro a _ rfl
      rfl
  | update kind n payload =>
      obtain ⟨text, htext⟩ := exists_text hfits
      refine (h.follows_update hd kind n htext).change ?_
      rintro a _ rfl
      rfl
  | delete kind n => exact (h.follows_delete hd kind n).removal _
  | add kind r n => exact (h.follows_add hd kind r n (hknown kind r n rfl)).removal _
  | remove kind r n => exact (h.follows_remove hd kind r n).removal _

end Mirrors

end IdentityStore
