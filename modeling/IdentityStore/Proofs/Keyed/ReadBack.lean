/-
A realm that was created is read back.

The creation of a realm takes its payload apart.  Every member becomes a record of its own, its
name goes into a list, and what is left is the document.  The store may hold some of this
already, or what is in the way: members with other words, the list of an earlier realm in many
entries, the remains of an attempt that was cut short.  None of it shows afterwards.  A step that
has been taken finds nothing to do in the end (`Plan.Resumable.after`), and where it finds
nothing to do the store holds what it writes: `founded_of_createRealm`.

Look-ups put the realm together by another way.  The list is read, the records are read all at
once, and each of them is decoded; that they come out in the order of the list, and that none is
missing, is `run_getAllFrom_of_spelled`.
-/
import IdentityStore.Proofs.Documents
import IdentityStore.Proofs.Keyed.Batch
import IdentityStore.Proofs.Keyed.Retry

namespace IdentityStore.Keyed

open IdentityStore.Membership (names)
open MemoryStore (answerIn)
open Plan (Idle inTurn)

variable {keys : KeySpace} {order : ScanOrder} {s s' : MemoryStore} {kind : Kind} {n r : String}
  {realm : Realm}

/-! ### What look-ups find under their keys -/

theorem run_requireRealm_of_entry (hon : s.online = true) (hn : isRealmName n = true)
    (h : (s.entries[keys.realm n]?).isSome = true) :
    (requireRealm keys n).run (answerIn order) s = (.ok (), s) := by
  have hexists : (realmExists keys n).run (answerIn order) s = (.ok true, s) := by
    unfold realmExists
    rw [if_pos hn, run_has_of_online hon, h]
  unfold requireRealm
  rw [Plan.run_bind_ok hexists]
  rfl

theorem run_getRealm_of_text (hon : s.online = true) (hn : isRealmName n = true) {text : String}
    (h : s.entries[keys.realm n]? = some (.text text))
    (hread : Realm.ofPayload (Utf8.ofString text) = .ok realm) :
    (getRealm keys n).run (answerIn order) s = (.ok realm, s) := by
  have hfetch : (fetchRealm keys n).run (answerIn order) s = (.ok (some realm), s) := by
    unfold fetchRealm
    rw [if_pos hn]
    dsimp only
    rw [Plan.run_bind_ok (run_get_of_text hon h)]
    dsimp only
    rw [hread]
    rfl
  unfold getRealm
  rw [Plan.run_bind_ok hfetch]
  rfl

/-- A realm has the records that are stored under the names it lists, in their order. -/
theorem run_getAllFrom_of_spelled (hon : s.online = true) (hr : isRealmName r = true)
    (hrealm : (s.entries[keys.realm r]?).isSome = true) {ms : List Member} {as : List kind.Record}
    (hms : contents s (keys.members kind r) = some ms) (h : Spelled keys s kind ms as) :
    (getAllFrom keys kind.Record r).run (answerIn order) s = (.ok as, s) := by
  have hmembers : (membersOf keys kind r).run (answerIn order) s = (.ok ms, s) := by
    unfold membersOf
    rw [Plan.run_bind_ok (run_requireRealm_of_entry hon hr hrealm)]
    exact run_loadMembers_of_contents hon hms
  rw [run_getAllFrom_of_membersOf hmembers, recordsFound_eq_ok_iff.mpr h]

/-! ### What is there in the end -/

/-- What a store holds of a realm that was created in it. -/
structure Founded (keys : KeySpace) (realm : Realm) (s : MemoryStore) : Prop where
  online : s.online = true
  name : isRealmName realm.name = true
  document : s.entries[keys.realm realm.name]? = some (.text realm.withoutMembers.write)
  records : ∀ kind, ∀ a ∈ (Principal.ofRealm realm : List (Kind.Record kind)),
    s.entries[keys.record kind (Principal.name a)]? = some (.text (Principal.write a))
  lists : ∀ kind, contents s (keys.members kind realm.name) = some (newMembers kind realm)

theorem mem_realmSteps_of_member {a : kind.Record}
    (ha : a ∈ (Principal.ofRealm realm : List kind.Record)) :
    store keys a (Principal.write a) ∈ realmSteps keys realm := by
  unfold realmSteps
  cases kind with
  | client =>
      have hstep := List.mem_map_of_mem (f := fun c => store keys c (Principal.write c)) ha
      exact List.mem_append_left _ (List.mem_append_left _ hstep)
  | user =>
      have hstep := List.mem_map_of_mem (f := fun u => store keys u (Principal.write u)) ha
      exact List.mem_append_left _ (List.mem_append_right _ hstep)

theorem mem_realmSteps_of_kind (kind : Kind) (realm : Realm) :
    resetMembers keys (keys.members kind realm.name) (newMembers kind realm)
      ∈ realmSteps keys realm := by
  unfold realmSteps
  cases kind <;> simp

/-- A record that finds nothing to store is stored, in these words. -/
theorem entry_of_idle_store {a : kind.Record} {text : String}
    (h : (store keys a text).Idle (answerIn order) s) :
    s.entries[keys.record kind (Principal.name a)]? = some (.text text) := by
  obtain ⟨-, -, hput⟩ := run_store_iff.mp h
  rw [hput, MemoryStore.getElem?_put, if_pos rfl]

/-- A list that finds nothing to set has the members already. -/
theorem contents_of_idle_reset {key : String} {ms : List Member} (hms : (names ms).Nodup)
    (h : (resetMembers keys key ms).Idle (answerIn order) s) : contents s key = some ms := by
  rw [Idle, resetMembers, changeMembers_none, Plan.run_locked] at h
  obtain ⟨-, current, changed, hcurrent, hchanged, hs⟩ := of_run_rewriteMembers h
  split_ifs at hchanged with hsame
  · rw [hcurrent, hsame]
  · cases hchanged
    refine contents_of_entry ?_ hms
    rw [hs, rewritten, MemoryStore.getElem?_put, if_pos rfl]

/-- **A creation that succeeds leaves the realm as its payload says**, whatever was there. -/
theorem founded_of_createRealm {payload : List UInt8}
    (h : (createRealm keys payload).run (answerIn order) s = (.ok realm, s')) :
    realmOfRequest payload = .ok realm ∧ Founded keys realm s' := by
  have hresumable := @resumable_createRealm keys order payload
  rw [createRealm_eq] at h
  obtain ⟨found, hcheck, h⟩ := (passes_iff hresumable.looks).mp h
  rcases Plan.run_bind_cases h with ⟨_, -, herror⟩ | ⟨_, s₁, hsteps, h⟩
  · cases herror
  rcases Plan.run_bind_cases h with ⟨_, -, herror⟩ | ⟨_, s₂, hwrite, h⟩
  · cases herror
  cases h
  obtain ⟨hcheck', hidle⟩ := hresumable.after (fun _ hp => hp) hcheck hsteps
  obtain ⟨hon, rfl⟩ := run_set_iff.mp hwrite
  have hpassed : Passed keys order payload realm s₁ := (checkRealm_iff.mp hcheck').1
  refine ⟨hpassed.request, ⟨hon, hpassed.name, ?_, ?_, ?_⟩⟩
  · rw [MemoryStore.getElem?_put, if_pos rfl]
  · intro kind a ha
    rw [MemoryStore.getElem?_put, if_neg keys.record_ne_realm.symm]
    exact entry_of_idle_store (hidle _ (mem_realmSteps_of_member ha))
  · intro kind
    have hnames : (names (newMembers kind realm)).Nodup := by
      rw [newMembers, names, List.map_map]
      exact hpassed.distinct kind
    have hlist : contents s₁ (keys.members kind realm.name) = some (newMembers kind realm) :=
      contents_of_idle_reset hnames (hidle _ (mem_realmSteps_of_kind kind realm))
    refine (contents_congr ?_).trans hlist
    rw [MemoryStore.getElem?_put, if_neg (keys.realm_ne_members hpassed.name)]

/-! ### Putting the realm together again -/

theorem Founded.run_getRealm (h : Founded keys realm s) :
    (getRealm keys realm.name).run (answerIn order) s = (.ok realm.withoutMembers, s) :=
  run_getRealm_of_text h.online h.name h.document
    (Realm.ofPayload_write (isRealmName_iff.mp h.name).1)

/-- The members are read as they were written. -/
theorem Founded.run_getAllFrom (h : Founded keys realm s) (kind : Kind)
    (hsound : ∀ a ∈ (Principal.ofRealm realm : List kind.Record), kind.Sound a) :
    (getAllFrom keys kind.Record realm.name).run (answerIn order) s
      = (.ok ((Principal.ofRealm realm).map kind.reread), s) := by
  refine run_getAllFrom_of_spelled h.online h.name (by rw [h.document]; rfl) (h.lists kind) ?_
  rw [newMembers, Spelled, List.forall₂_map_left_iff, List.forall₂_map_right_iff, List.forall₂_same]
  intro a ha
  exact ⟨Principal.write a, h.records kind a ha, Kind.ofPayload_write (hsound a ha)⟩

theorem Founded.run_getRealmWithMembers (h : Founded keys realm s) (hsound : realm.Sound) :
    (getRealmWithMembers keys realm.name).run (answerIn order) s = (.ok realm.reread, s) := by
  have hclients : (getAllFrom keys Client realm.name).run (answerIn order) s
      = (.ok realm.reread.clients, s) := h.run_getAllFrom .client hsound.clients
  have husers : (getAllFrom keys User realm.name).run (answerIn order) s
      = (.ok realm.reread.users, s) := h.run_getAllFrom .user hsound.users
  unfold getRealmWithMembers
  rw [Plan.run_bind_ok h.run_getRealm, Plan.run_bind_ok hclients, Plan.run_bind_ok husers]
  rfl

/-- **A realm that was created is read back.**  Whatever the store held, if a realm is created
then it is the realm of the payload, it is found without its members, and it is found with
exactly these members in this order, each as the payload has it, if they hold no floating
numbers. -/
theorem created_realm_is_read_back (keys : KeySpace) (order : ScanOrder) (s s' : MemoryStore)
    (payload : List UInt8) (realm : Realm)
    (h : (plan keys (.createRealm payload)).run (answerIn order) s = (.ok (.realm realm), s'))
    (hexact : realm.isExact = true) :
    Realm.ofPayload payload = .ok realm ∧
      (plan keys (.getRealm realm.name)).run (answerIn order) s'
        = (.ok (.realm realm.withoutMembers), s') ∧
      (plan keys (.getRealmWithMembers realm.name)).run (answerIn order) s'
        = (.ok (.realm realm), s') := by
  rcases Plan.run_bind_cases h with ⟨_, -, herror⟩ | ⟨created, s₁, hcreate, hdone⟩
  · cases herror
  cases hdone
  obtain ⟨hrequest, hfounded⟩ := founded_of_createRealm hcreate
  have hpayload : Realm.ofPayload payload = .ok realm := Json.eq_ok_of_mapError hrequest
  refine ⟨hpayload, Plan.run_bind_ok hfounded.run_getRealm, ?_⟩
  have hread : (getRealmWithMembers keys realm.name).run (answerIn order) s'
      = (.ok realm.reread, s') :=
    hfounded.run_getRealmWithMembers (Realm.sound_of_ofPayload hpayload)
  rw [Realm.reread_eq_self hexact] at hread
  exact Plan.run_bind_ok hread

/-- A realm with two clients, in words. -/
def staffedRealm : List UInt8 :=
  Utf8.ofString ("\x7b\"clients\":[\x7b\"name\":\"app\"," ++
    "\"id\":\"00000000-0000-0000-0000-000000000003\"\x7d,\x7b\"name\":\"web\"," ++
    "\"id\":\"00000000-0000-0000-0000-000000000001\"\x7d],\"name\":\"acme\"\x7d")

/-- A store with what an earlier realm left, and with a client of the new one that is public. -/
def formerStore : MemoryStore :=
  leftoverStore.put (KeySpace.default.record .client "web")
    (.text ("\x7b\"type\":\"public\",\"name\":\"web\"," ++
      "\"id\":\"00000000-0000-0000-0000-000000000001\"\x7d"))

theorem created_realm_is_read_back_acme :
    ∃ realm s', ((plan .default (.createRealm staffedRealm)).run (answerIn .rising) formerStore
          = (.ok (.realm realm), s') ∧ realm.isExact = true) ∧
      Realm.ofPayload staffedRealm = .ok realm ∧
      (plan .default (.getRealmWithMembers realm.name)).run (answerIn .rising) s'
        = (.ok (.realm realm), s') := by
  have hcreated : ((plan .default (.createRealm staffedRealm)).run (answerIn .rising)
      formerStore).1.map (fun | .realm realm => realm.isExact | _ => false) = .ok true := by
    decide +kernel
  rcases hrun : (plan .default (.createRealm staffedRealm)).run (answerIn .rising) formerStore
    with ⟨_ | answer, s'⟩
  · rw [hrun] at hcreated
    cases hcreated
  · rw [hrun] at hcreated
    cases answer with
    | realm realm =>
        have hexact : realm.isExact = true := Except.ok.inj hcreated
        obtain ⟨hpayload, -, hread⟩ := created_realm_is_read_back .default .rising formerStore s'
          staffedRealm realm hrun hexact
        exact ⟨realm, s', ⟨rfl, hexact⟩, hpayload, hread⟩
    | _ => cases hcreated

end IdentityStore.Keyed
