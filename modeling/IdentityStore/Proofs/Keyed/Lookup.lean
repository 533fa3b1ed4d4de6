/-
What look-ups answer.

A look-up changes nothing, and its answer can be told from the three views of the store.
Each equation here says so of one look-up that runs alone, whatever the order in which the
store lists its keys, and uses those of the look-ups it is made of.
-/
import IdentityStore.Proofs.Keyed.View

namespace IdentityStore.Keyed

open IdentityStore.Membership (names)
open MemoryStore (answerIn)

variable {keys : KeySpace} {order : ScanOrder} {s : MemoryStore}

/-! ### Texts and lists -/

theorem run_getText (h : Shaped keys s) {key : String} {found : Option String}
    (hfound : s.text? key = .ok found) :
    (Plan.ask (.get key)).run (answerIn order) s = (.ok found, s) := by
  rw [Plan.run_ask, MemoryStore.answerIn_get h.online, hfound]
  rfl

theorem run_getList (h : Shaped keys s) {key : String} {entries : List String}
    (hentries : s.list? key = .ok entries) :
    (Plan.ask (.list key)).run (answerIn order) s = (.ok entries, s) := by
  rw [Plan.run_ask, MemoryStore.answerIn_list h.online, hentries]
  rfl

/-! ### Realms -/

theorem run_fetchRealm (h : Shaped keys s) (n : String) :
    (fetchRealm keys n).run (answerIn order) s = (.ok (realmAt keys s n), s) := by
  unfold fetchRealm
  by_cases hn : isRealmName n = true
  · rw [if_pos hn]
    dsimp only
    rcases h.realm_cases hn with ⟨hnone, hview⟩ | ⟨text, r, hsome, hdecoded, -, -, -, hview⟩
    · have htext : s.text? (keys.realm n) = .ok none := by
        rw [MemoryStore.text?, hnone]
      rw [Plan.run_bind_ok (run_getText h htext), hview]
      rfl
    · have htext : s.text? (keys.realm n) = .ok (some text) := by
        rw [MemoryStore.text?, hsome]
      rw [Plan.run_bind_ok (run_getText h htext), hview]
      dsimp only
      rw [hdecoded]
      rfl
  · rw [if_neg hn, realmAt, if_neg hn]
    rfl

theorem run_realmExists (h : Shaped keys s) (n : String) :
    (realmExists keys n).run (answerIn order) s = (.ok (realmAt keys s n).isSome, s) := by
  unfold realmExists
  by_cases hn : isRealmName n = true
  · rw [if_pos hn, Plan.run_ask, MemoryStore.answerIn_has h.online,
      Std.ExtTreeMap.contains_eq_isSome_getElem?]
    rcases h.realm_cases hn with ⟨hnone, hview⟩ | ⟨text, r, hsome, -, -, -, -, hview⟩
    · rw [hnone, hview]
      rfl
    · rw [hsome, hview]
      rfl
  · rw [if_neg hn, realmAt, if_neg hn]
    rfl

/-- The error of an unknown realm, or the realm. -/
def realmOr (keys : KeySpace) (s : MemoryStore) (n : String) : Except StorageError Realm :=
  match realmAt keys s n with
  | some r => .ok r
  | none => .error (.notFound "Realm" n)

theorem realmAt_of_realmOr {n : String} {realm : Realm} (h : realmOr keys s n = .ok realm) :
    realmAt keys s n = some realm := by
  unfold realmOr at h
  split at h
  · cases h
    assumption
  · cases h

theorem run_requireRealm (order : ScanOrder) (h : Shaped keys s) (n : String) :
    (requireRealm keys n).run (answerIn order) s = ((realmOr keys s n).map fun _ => (), s) := by
  unfold requireRealm
  rw [Plan.run_bind_ok (run_realmExists h n), realmOr]
  rcases realmAt keys s n with _ | r <;> rfl

theorem run_getRealm (order : ScanOrder) (h : Shaped keys s) (n : String) :
    (getRealm keys n).run (answerIn order) s = (realmOr keys s n, s) := by
  unfold getRealm
  rw [Plan.run_bind_ok (run_fetchRealm h n), realmOr]
  rcases realmAt keys s n with _ | r <;> rfl

/-! ### Records -/

theorem run_fetch (h : Shaped keys s) (kind : Kind) (n : String) :
    (fetch keys kind.Record n).run (answerIn order) s = (.ok (recordAt keys s kind n), s) := by
  have hkey : keys.record (Principal.kind kind.Record) n = keys.record kind n := by
    rw [Kind.kind_record]
  unfold fetch
  dsimp only
  rcases h.record_cases kind n with ⟨hnone, hview⟩ | ⟨text, a, hsome, hdecoded, -, hview⟩
  · have htext : s.text? (keys.record (Principal.kind kind.Record) n) = .ok none := by
      rw [MemoryStore.text?, hkey, hnone]
    rw [Plan.run_bind_ok (run_getText h htext), hview]
    rfl
  · have htext : s.text? (keys.record (Principal.kind kind.Record) n) = .ok (some text) := by
      rw [MemoryStore.text?, hkey, hsome]
    rw [Plan.run_bind_ok (run_getText h htext), hview]
    dsimp only
    rw [decode, hdecoded]
    rfl

/-- The error of an unknown record, or the record. -/
def recordOr (keys : KeySpace) (s : MemoryStore) (kind : Kind) (n : String) :
    Except StorageError kind.Record :=
  match recordAt keys s kind n with
  | some a => .ok a
  | none => .error (.notFound kind.entity n)

theorem recordAt_of_recordOr {kind : Kind} {n : String} {a : kind.Record}
    (h : recordOr keys s kind n = .ok a) : recordAt keys s kind n = some a := by
  unfold recordOr at h
  split at h
  · cases h
    assumption
  · cases h

theorem run_get (order : ScanOrder) (h : Shaped keys s) (kind : Kind) (n : String) :
    (get keys kind.Record n).run (answerIn order) s = (recordOr keys s kind n, s) := by
  unfold get
  rw [Plan.run_bind_ok (run_fetch h kind n), recordOr]
  rcases recordAt keys s kind n with _ | a
  · rw [Kind.entity_record]
    rfl
  · rfl

/-! ### Members -/

theorem run_loadMembers (h : Shaped keys s) (kind : Kind) (r : String) :
    (loadMembers (keys.members kind r)).run (answerIn order) s
      = (.ok (membersAt keys s kind r), s) := by
  unfold loadMembers
  rcases h.members_cases kind r with ⟨hnone, hview⟩ | ⟨entry, hsome, hread, hnodup⟩
  · have hlist : s.list? (keys.members kind r) = .ok [] := by
      rw [MemoryStore.list?, hnone]
    rw [Plan.run_bind_ok (run_getList h hlist), hview]
    rfl
  · have hlist : s.list? (keys.members kind r) = .ok [entry] := by
      rw [MemoryStore.list?, hsome]
    rw [Plan.run_bind_ok (run_getList h hlist), Plan.run_ofExcept,
      Membership.ofEntries_singleton hread hnodup]
    rfl

theorem run_membersOf (order : ScanOrder) (h : Shaped keys s) (kind : Kind) (r : String) :
    (membersOf keys kind r).run (answerIn order) s
      = ((realmOr keys s r).map fun _ => membersAt keys s kind r, s) := by
  unfold membersOf
  have hrequire := run_requireRealm order h r
  rcases hrealm : realmOr keys s r with e | realm
  · rw [hrealm] at hrequire
    exact Plan.run_bind_error hrequire
  · rw [hrealm] at hrequire
    rw [Plan.run_bind_ok hrequire, run_loadMembers h]
    rfl

theorem run_getFrom (h : Shaped keys s) (kind : Kind) (r n : String) :
    (getFrom keys kind.Record r n).run (answerIn order) s
      = ((realmOr keys s r).bind fun _ =>
          if n ∈ names (membersAt keys s kind r) then recordOr keys s kind n
          else .error (.notMember kind.entity r n), s) := by
  unfold getFrom
  have hmembers := run_membersOf order h kind r
  rw [Kind.kind_record, Kind.entity_record]
  rcases hrealm : realmOr keys s r with e | realm
  · rw [hrealm] at hmembers
    exact Plan.run_bind_error hmembers
  rw [hrealm] at hmembers
  rw [Plan.run_bind_ok hmembers, Except.bind]
  dsimp only
  cases hfind : (membersAt keys s kind r).find? fun m => decide (m.name = n) with
  | none =>
    have hn : n ∉ names (membersAt keys s kind r) := by
      intro hmem
      obtain ⟨m, hm, hname⟩ := List.mem_map.mp hmem
      have := List.find?_eq_none.mp hfind m hm
      simp [hname] at this
    rw [if_neg hn]
    rfl
  | some m =>
    have hname : m.name = n := by simpa using List.find?_some hfind
    have hn : n ∈ names (membersAt keys s kind r) :=
      hname ▸ List.mem_map_of_mem (List.mem_of_find?_eq_some hfind)
    rw [if_pos hn]
    dsimp only
    rw [hname]
    exact run_get order h kind n

theorem run_getUserById (h : Shaped keys s) (r : String) (id : Uuid) :
    (getUserById keys r id).run (answerIn order) s
      = ((realmOr keys s r).bind fun _ =>
          match (membersAt keys s .user r).find? (·.id = id) with
          | none => .error (.notFoundById "User" id)
          | some m => recordOr keys s .user m.name, s) := by
  unfold getUserById
  have hmembers := run_membersOf order h .user r
  rcases hrealm : realmOr keys s r with e | realm
  · rw [hrealm] at hmembers
    exact Plan.run_bind_error hmembers
  rw [hrealm] at hmembers
  rw [Plan.run_bind_ok hmembers, Except.bind]
  dsimp only
  cases (membersAt keys s .user r).find? fun m => decide (m.id = id) with
  | none => rfl
  | some m => exact run_get order h .user m.name

/-- The records of members, and the names of those that have none. -/
theorem sortFound_eq (h : Shaped keys s) (kind : Kind) (ms : List Member) :
    sortFound keys kind.Record
        (ms.zip (ms.map fun m => s.textOrNone (keys.record kind m.name)))
      = .ok (ms.filterMap fun m => recordAt keys s kind m.name,
          names (ms.filter fun m => (recordAt keys s kind m.name).isNone)) := by
  induction ms with
  | nil => rfl
  | cons m rest ih =>
      rw [List.map_cons, List.zip_cons_cons]
      rcases h.record_cases kind m.name with
        ⟨hnone, hview⟩ | ⟨text, a, hsome, hdecoded, -, hview⟩
      · rw [MemoryStore.textOrNone, hnone]
        dsimp only
        rw [sortFound, ih]
        simp [hview, bind, Except.bind]
        rfl
      · rw [MemoryStore.textOrNone, hsome]
        dsimp only
        rw [sortFound, ih, decode, hdecoded]
        simp [hview, bind, Except.bind, Except.mapError]
        rfl

/-- The error of an unknown realm or of members without records, or the records. -/
def recordsOr (keys : KeySpace) (s : MemoryStore) (kind : Kind) (r : String) :
    Except StorageError (List kind.Record) :=
  (realmOr keys s r).bind fun _ =>
    let ms := membersAt keys s kind r
    let missing := names (ms.filter fun m => (recordAt keys s kind m.name).isNone)
    if missing = [] then .ok (ms.filterMap fun m => recordAt keys s kind m.name)
    else .error (.inconsistent r kind.entity missing)

theorem run_getAllFrom (order : ScanOrder) (h : Shaped keys s) (kind : Kind) (r : String) :
    (getAllFrom keys kind.Record r).run (answerIn order) s = (recordsOr keys s kind r, s) := by
  unfold getAllFrom recordsOr
  have hmembers := run_membersOf order h kind r
  rw [Kind.kind_record, Kind.entity_record]
  rcases hrealm : realmOr keys s r with e | realm
  · rw [hrealm] at hmembers
    exact Plan.run_bind_error hmembers
  rw [hrealm] at hmembers
  rw [Plan.run_bind_ok hmembers, Except.bind]
  dsimp only
  by_cases hempty : membersAt keys s kind r = []
  · rw [if_pos hempty, hempty]
    rfl
  have htexts : (Plan.ask (.getMany ((membersAt keys s kind r).map fun m =>
        keys.record kind m.name))).run (answerIn order) s
      = (.ok ((membersAt keys s kind r).map fun m =>
        s.textOrNone (keys.record kind m.name)), s) := by
    rw [Plan.run_ask, MemoryStore.answerIn_getMany h.online, List.map_map]
    rfl
  rw [if_neg hempty, Plan.run_bind_ok htexts,
    Plan.run_bind_ok (by rw [Plan.run_ofExcept, sortFound_eq h])]
  dsimp only
  split_ifs <;> rfl

theorem run_getRealmWithMembers (h : Shaped keys s) (n : String) :
    (getRealmWithMembers keys n).run (answerIn order) s
      = ((realmOr keys s n).bind fun realm => (recordsOr keys s .client n).bind fun clients =>
          (recordsOr keys s .user n).map fun users => { realm with clients, users }, s) := by
  unfold getRealmWithMembers
  have hrealm := run_getRealm order h n
  have hclients := run_getAllFrom order h .client n
  have husers := run_getAllFrom order h .user n
  rcases hr : realmOr keys s n with e | realm
  · exact Plan.run_bind_error (hrealm.trans (by rw [hr]))
  rw [Plan.run_bind_ok (hrealm.trans (by rw [hr]))]
  rcases hc : recordsOr keys s .client n with e | clients
  · exact Plan.run_bind_error (hclients.trans (by rw [hc]))
  refine (Plan.run_bind_ok (hclients.trans (by rw [hc]))).trans ?_
  rcases hu : recordsOr keys s .user n with e | users
  · exact Plan.run_bind_error (husers.trans (by rw [hu]))
  · exact Plan.run_bind_ok (husers.trans (by rw [hu]))

end IdentityStore.Keyed
