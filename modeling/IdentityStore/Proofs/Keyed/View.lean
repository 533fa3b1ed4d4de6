/-
What a keyed store says.

A store of one namespace is known by three views: the record of a name, the realm of a
name, and the list of a realm.  What lies under a key has the shape of the key, so each
look-up is answered by one of the views and nothing else, and each request that changes
the store changes one view in one place.
-/
import IdentityStore.Proofs.Keyed.Representation

namespace IdentityStore.Keyed

open IdentityStore.Membership (names)

variable (keys : KeySpace) (s : MemoryStore)

/-! ### Views -/

/-- The record of a name. -/
def recordAt (kind : Kind) (n : String) : Option kind.Record :=
  match s.entries[keys.record kind n]? with
  | some (.text text) => (Principal.ofPayload (α := kind.Record) (Utf8.ofString text)).toOption
  | _ => none

/-- The realm of a name. -/
def realmAt (n : String) : Option Realm :=
  if isRealmName n then
    match s.entries[keys.realm n]? with
    | some (.text text) => (Realm.ofPayload (Utf8.ofString text)).toOption
    | _ => none
  else none

/-- The members that a realm lists. -/
def membersAt (kind : Kind) (r : String) : List Member :=
  match s.entries[keys.members kind r]? with
  | some (.list [entry]) => (Member.readEntry entry).toOption.getD []
  | _ => []

variable {keys s} {kind : Kind} {n r : String}

/-- What the key of a record holds. -/
theorem Shaped.record_cases (h : Shaped keys s) (kind : Kind) (n : String) :
    (s.entries[keys.record kind n]? = none ∧ recordAt keys s kind n = none) ∨
      ∃ text, ∃ a : kind.Record, s.entries[keys.record kind n]? = some (.text text) ∧
        Principal.ofPayload (Utf8.ofString text) = .ok a ∧ Principal.name a = n ∧
        recordAt keys s kind n = some a := by
  rcases he : s.entries[keys.record kind n]? with _ | e
  · exact .inl ⟨rfl, by rw [recordAt, he]⟩
  · obtain ⟨text, a, rfl, hdecoded, hname⟩ := (h.entries _ e he).of_record
    refine .inr ⟨text, a, rfl, hdecoded, hname, ?_⟩
    rw [recordAt, he]
    simp [hdecoded, Except.toOption]

/-- What the key of a realm holds. -/
theorem Shaped.realm_cases (h : Shaped keys s) (hn : isRealmName n = true) :
    (s.entries[keys.realm n]? = none ∧ realmAt keys s n = none) ∨
      ∃ text r, s.entries[keys.realm n]? = some (.text text) ∧
        Realm.ofPayload (Utf8.ofString text) = .ok r ∧ r.name = n ∧ r.clients = [] ∧
        r.users = [] ∧ realmAt keys s n = some r := by
  rcases he : s.entries[keys.realm n]? with _ | e
  · exact .inl ⟨rfl, by rw [realmAt, if_pos hn, he]⟩
  · obtain ⟨text, r, rfl, hdecoded, hrest⟩ := (h.entries _ e he).of_realm hn
    refine .inr ⟨text, r, rfl, hdecoded, hrest.1, hrest.2.1, hrest.2.2, ?_⟩
    rw [realmAt, if_pos hn, he]
    simp [hdecoded, Except.toOption]

/-- What the key of a list holds. -/
theorem Shaped.members_cases (h : Shaped keys s) (kind : Kind) (r : String) :
    (s.entries[keys.members kind r]? = none ∧ membersAt keys s kind r = []) ∨
      ∃ entry, s.entries[keys.members kind r]? = some (.list [entry]) ∧
        Member.readEntry entry = .ok (membersAt keys s kind r) ∧
        (names (membersAt keys s kind r)).Nodup := by
  rcases he : s.entries[keys.members kind r]? with _ | e
  · exact .inl ⟨rfl, by rw [membersAt, he]⟩
  · obtain ⟨entry, ms, rfl, hread, hnodup⟩ := (h.entries _ e he).of_members
    have hview : membersAt keys s kind r = ms := by
      rw [membersAt, he]
      simp [hread, Except.toOption]
    rw [hview]
    exact .inr ⟨entry, rfl, hread, hnodup⟩

theorem Shaped.name_of_recordAt (h : Shaped keys s) {a : kind.Record}
    (ha : recordAt keys s kind n = some a) : Principal.name a = n := by
  rcases h.record_cases kind n with ⟨-, hnone⟩ | ⟨text, b, -, -, hname, hsome⟩
  · rw [hnone] at ha
    cases ha
  · rw [hsome] at ha
    cases ha
    exact hname

theorem Shaped.nodup_membersAt (h : Shaped keys s) (kind : Kind) (r : String) :
    (names (membersAt keys s kind r)).Nodup := by
  rcases h.members_cases kind r with ⟨-, hempty⟩ | ⟨entry, -, -, hnodup⟩
  · rw [hempty]
    exact List.nodup_nil
  · exact hnodup

theorem isRealmName_of_realmAt {realm : Realm} (h : realmAt keys s n = some realm) :
    isRealmName n = true := by
  by_contra hn
  rw [realmAt, if_neg hn] at h
  cases h

/-! ### Changes -/

/-- A view of a record is untouched where its key is. -/
theorem recordAt_congr {s' : MemoryStore}
    (h : s'.entries[keys.record kind n]? = s.entries[keys.record kind n]?) :
    recordAt keys s' kind n = recordAt keys s kind n := by
  rw [recordAt, recordAt, h]

theorem realmAt_congr {s' : MemoryStore}
    (h : isRealmName n = true → s'.entries[keys.realm n]? = s.entries[keys.realm n]?) :
    realmAt keys s' n = realmAt keys s n := by
  unfold realmAt
  by_cases hn : isRealmName n = true
  · rw [if_pos hn, if_pos hn, h hn]
  · rw [if_neg hn, if_neg hn]

theorem membersAt_congr {s' : MemoryStore}
    (h : s'.entries[keys.members kind r]? = s.entries[keys.members kind r]?) :
    membersAt keys s' kind r = membersAt keys s kind r := by
  rw [membersAt, membersAt, h]

theorem entry_put_ne {k k' : String} (h : k ≠ k') (e : Entry) :
    (s.put k e).entries[k']? = s.entries[k']? := by
  rw [MemoryStore.getElem?_put, if_neg h]

theorem entry_put_self (k : String) (e : Entry) : (s.put k e).entries[k]? = some e := by
  rw [MemoryStore.getElem?_put, if_pos rfl]

variable (keys s) in
/-- The store after a text was put under the name of a record. -/
def putRecord (kind : Kind) (n text : String) : MemoryStore :=
  s.put (keys.record kind n) (.text text)

variable (keys s) in
/-- The store after members were put in a list. -/
def putMembers (kind : Kind) (r : String) (ms : List Member) : MemoryStore :=
  s.put (keys.members kind r) (.list (Membership.toEntries ms))

variable (keys s) in
/-- The store after the document of a realm was put under its name. -/
def putDocument (realm : Realm) : MemoryStore :=
  s.put (keys.realm realm.name) (.text realm.withoutMembers.write)

section Records

variable {text : String}

theorem recordAt_putRecord_self {a : kind.Record}
    (h : Principal.ofPayload (Utf8.ofString text) = .ok a) :
    recordAt keys (putRecord keys s kind n text) kind n = some a := by
  rw [recordAt, putRecord, entry_put_self]
  simp [h, Except.toOption]

theorem recordAt_putRecord_ne {kind' : Kind} {m : String} (h : kind' = kind → m ≠ n) :
    recordAt keys (putRecord keys s kind n text) kind' m = recordAt keys s kind' m := by
  refine recordAt_congr (entry_put_ne (fun heq => ?_) _)
  obtain ⟨rfl, rfl⟩ := keys.record_inj heq
  exact h rfl rfl

@[simp] theorem realmAt_putRecord (m : String) :
    realmAt keys (putRecord keys s kind n text) m = realmAt keys s m :=
  realmAt_congr fun _ => entry_put_ne keys.record_ne_realm _

@[simp] theorem membersAt_putRecord (kind' : Kind) (r : String) :
    membersAt keys (putRecord keys s kind n text) kind' r = membersAt keys s kind' r :=
  membersAt_congr (entry_put_ne keys.record_ne_members _)

theorem Shaped.putRecord (h : Shaped keys s) {a : kind.Record}
    (ha : Principal.ofPayload (Utf8.ofString text) = .ok a) :
    Shaped keys (putRecord keys s kind (Principal.name a) text) := h.put (.record ha)

end Records

section Members

variable {ms : List Member}

@[simp] theorem recordAt_putMembers (kind' : Kind) (m : String) :
    recordAt keys (putMembers keys s kind r ms) kind' m = recordAt keys s kind' m :=
  recordAt_congr (entry_put_ne keys.record_ne_members.symm _)

@[simp] theorem realmAt_putMembers (m : String) :
    realmAt keys (putMembers keys s kind r ms) m = realmAt keys s m :=
  realmAt_congr fun hm => entry_put_ne (keys.realm_ne_members hm).symm _

@[simp] theorem membersAt_putMembers_self :
    membersAt keys (putMembers keys s kind r ms) kind r = ms := by
  rw [membersAt, putMembers, entry_put_self]
  simp [Membership.toEntries, Member.readEntry_writeEntry, Except.toOption]

theorem membersAt_putMembers_ne {kind' : Kind} {r' : String} (h : kind' = kind → r' ≠ r) :
    membersAt keys (putMembers keys s kind r ms) kind' r' = membersAt keys s kind' r' := by
  refine membersAt_congr (entry_put_ne (fun heq => ?_) _)
  obtain ⟨rfl, rfl⟩ := keys.members_inj heq
  exact h rfl rfl

theorem Shaped.putMembers (h : Shaped keys s) (hms : (names ms).Nodup) :
    Shaped keys (putMembers keys s kind r ms) :=
  h.put (.members kind r (Member.readEntry_writeEntry ms) hms)

end Members

section Documents

variable {realm : Realm}

@[simp] theorem recordAt_putDocument (kind : Kind) (m : String) :
    recordAt keys (putDocument keys s realm) kind m = recordAt keys s kind m :=
  recordAt_congr (entry_put_ne keys.record_ne_realm.symm _)

theorem realmAt_putDocument_self (h : isRealmName realm.name = true) :
    realmAt keys (putDocument keys s realm) realm.name = some realm.withoutMembers := by
  rw [realmAt, if_pos h, putDocument, entry_put_self]
  simp [Realm.ofPayload_write (isRealmName_iff.mp h).1, Except.toOption]

theorem realmAt_putDocument_ne {m : String} (h : m ≠ realm.name) :
    realmAt keys (putDocument keys s realm) m = realmAt keys s m :=
  realmAt_congr fun _ => entry_put_ne (fun heq => h (keys.realm_inj heq).symm) _

@[simp] theorem membersAt_putDocument (h : isRealmName realm.name = true) (kind : Kind)
    (r : String) : membersAt keys (putDocument keys s realm) kind r = membersAt keys s kind r :=
  membersAt_congr (entry_put_ne (keys.realm_ne_members h) _)

theorem Shaped.putDocument (h : Shaped keys s) (hname : isRealmName realm.name = true) :
    Shaped keys (putDocument keys s realm) :=
  h.put (.realm (r := realm.withoutMembers) (Realm.ofPayload_write (isRealmName_iff.mp hname).1)
    hname rfl rfl)

end Documents

section Deletions

variable {ks : List String}

theorem recordAt_drop_of_mem (h : keys.record kind n ∈ ks) :
    recordAt keys (s.drop ks) kind n = none := by
  rw [recordAt, MemoryStore.getElem?_drop, if_pos h]

theorem recordAt_drop (h : keys.record kind n ∉ ks) :
    recordAt keys (s.drop ks) kind n = recordAt keys s kind n :=
  recordAt_congr (by rw [MemoryStore.getElem?_drop, if_neg h])

theorem realmAt_drop_of_mem (h : keys.realm n ∈ ks) : realmAt keys (s.drop ks) n = none := by
  unfold realmAt
  rw [MemoryStore.getElem?_drop, if_pos h]
  split_ifs <;> rfl

theorem realmAt_drop (h : isRealmName n = true → keys.realm n ∉ ks) :
    realmAt keys (s.drop ks) n = realmAt keys s n :=
  realmAt_congr fun hn => by rw [MemoryStore.getElem?_drop, if_neg (h hn)]

theorem membersAt_drop_of_mem (h : keys.members kind r ∈ ks) :
    membersAt keys (s.drop ks) kind r = [] := by
  rw [membersAt, MemoryStore.getElem?_drop, if_pos h]

theorem membersAt_drop (h : keys.members kind r ∉ ks) :
    membersAt keys (s.drop ks) kind r = membersAt keys s kind r :=
  membersAt_congr (by rw [MemoryStore.getElem?_drop, if_neg h])

end Deletions

end IdentityStore.Keyed
