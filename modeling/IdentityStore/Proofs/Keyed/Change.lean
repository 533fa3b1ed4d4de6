/-
What changes leave.

Each equation follows one part of a plan that runs alone, and says how it ends and what the
views are afterwards.  A list that is written as it was read is not written at all, so for
lists the views are given and not the entries.
-/
import IdentityStore.Proofs.Keyed.Lookup

namespace IdentityStore.Keyed

open IdentityStore.Membership (names)
open MemoryStore (answerIn)

variable {keys : KeySpace} {order : ScanOrder} {s : MemoryStore} {kind : Kind} {n r : String}

/-! ### Requests -/

theorem run_set (h : Shaped keys s) (key text : String) :
    (Plan.ask (.set key text)).run (answerIn order) s = (.ok (), s.put key (.text text)) := by
  rw [Plan.run_ask, MemoryStore.answerIn_set h.online]
  rfl

theorem run_setMembers (h : Shaped keys s) (kind : Kind) (r : String) (ms : List Member) :
    (Plan.ask (.setList (keys.members kind r) (Membership.toEntries ms))).run (answerIn order) s
      = (.ok (), putMembers keys s kind r ms) := by
  rw [Membership.toEntries, Plan.run_ask, MemoryStore.answerIn_setList h.online]
  rfl

theorem run_has (h : Shaped keys s) (key : String) :
    (Plan.ask (.has key)).run (answerIn order) s = (.ok (s.entries.contains key), s) := by
  rw [Plan.run_ask, MemoryStore.answerIn_has h.online]
  rfl

theorem run_scan (h : Shaped keys s) (pattern : String) :
    (Plan.ask (.scan pattern)).run (answerIn order) s
      = (.ok (order.arrange s.keys pattern), s) := by
  rw [Plan.run_ask, MemoryStore.answerIn_scan h.online]
  rfl

theorem run_delete (h : Shaped keys s) (ks : List String) :
    (Plan.ask (.delete ks)).run (answerIn order) s = (.ok (s.deleteAll ks).1, s.drop ks) := by
  rw [Plan.run_ask, MemoryStore.answerIn_delete h.online]
  rfl

/-- A plan that reads nothing of the number of keys that a deletion found. -/
theorem run_deleteKeys (h : Shaped keys s) (ks : List String) :
    (do let _ ← Plan.ask (.delete ks); return () : Plan Unit).run (answerIn order) s
      = (.ok (), s.drop ks) :=
  Plan.run_bind_ok (run_delete h ks)

/-! ### Lists -/

theorem run_rewriteMembers (h : Shaped keys s) (kind : Kind) (r : String)
    (change : List Member → Except StorageError (Option (List Member))) :
    (rewriteMembers (keys.members kind r) change).run (answerIn order) s
      = match change (membersAt keys s kind r) with
        | .error e => (.error e, s)
        | .ok none => (.ok (), s)
        | .ok (some ms) => (.ok (), putMembers keys s kind r ms) := by
  unfold rewriteMembers
  rw [Plan.run_bind_ok (run_loadMembers h kind r)]
  rcases hchange : change (membersAt keys s kind r) with e | ms
  · exact Plan.run_bind_error (Plan.run_ofExcept _)
  refine (Plan.run_bind_ok (Plan.run_ofExcept _)).trans ?_
  cases ms with
  | none => rfl
  | some ms => exact run_setMembers h kind r ms

/-- The views of a store after a list was made to hold some members, whether or not it had
to be written. -/
structure Relisted (keys : KeySpace) (s : MemoryStore) (lists : Kind → String → List Member)
    (s' : MemoryStore) : Prop where
  shaped : Shaped keys s'
  record : ∀ kind n, recordAt keys s' kind n = recordAt keys s kind n
  realm : ∀ n, realmAt keys s' n = realmAt keys s n
  members : ∀ kind r, membersAt keys s' kind r = lists kind r

theorem Relisted.refl (h : Shaped keys s) : Relisted keys s (membersAt keys s) s :=
  ⟨h, fun _ _ => rfl, fun _ => rfl, fun _ _ => rfl⟩

theorem Relisted.trans {s₁ s₂ : MemoryStore} {lists lists' : Kind → String → List Member}
    (h : Relisted keys s lists s₁) (h' : Relisted keys s₁ lists' s₂) :
    Relisted keys s lists' s₂ where
  shaped := h'.shaped
  record kind n := (h'.record kind n).trans (h.record kind n)
  realm n := (h'.realm n).trans (h.realm n)
  members := h'.members

/-- One list is another. -/
def relist (keys : KeySpace) (s : MemoryStore) (kind : Kind) (r : String) (ms : List Member) :
    Kind → String → List Member :=
  fun kind' r' => if kind' = kind ∧ r' = r then ms else membersAt keys s kind' r'

theorem relisted_putMembers (h : Shaped keys s) {ms : List Member} (hms : (names ms).Nodup) :
    Relisted keys s (relist keys s kind r ms) (putMembers keys s kind r ms) where
  shaped := h.putMembers hms
  record kind' n := recordAt_putMembers kind' n
  realm n := realmAt_putMembers n
  members kind' r' := by
    unfold relist
    split_ifs with hsame
    · obtain ⟨rfl, rfl⟩ := hsame
      exact membersAt_putMembers_self
    · exact membersAt_putMembers_ne fun hkind hr => hsame ⟨hkind, hr⟩

theorem relisted_self (h : Shaped keys s) {ms : List Member}
    (hms : membersAt keys s kind r = ms) : Relisted keys s (relist keys s kind r ms) s where
  shaped := h
  record _ _ := rfl
  realm _ := rfl
  members kind' r' := by
    unfold relist
    split_ifs with hsame
    · obtain ⟨rfl, rfl⟩ := hsame
      exact hms
    · rfl

/-- A list is made to hold just the given members. -/
theorem run_resetMembers (order : ScanOrder) (h : Shaped keys s) (kind : Kind) (r : String)
    (ms : List Member) (hms : (names ms).Nodup) :
    ∃ s', (resetMembers keys (keys.members kind r) ms).run (answerIn order) s = (.ok (), s') ∧
      Relisted keys s (relist keys s kind r ms) s' := by
  unfold resetMembers
  rw [changeMembers_none, Plan.run_locked, run_rewriteMembers h]
  by_cases hsame : membersAt keys s kind r = ms
  · rw [if_pos hsame]
    exact ⟨s, rfl, relisted_self h hsame⟩
  · rw [if_neg hsame]
    exact ⟨_, rfl, relisted_putMembers h hms⟩

/-- A name leaves the list under one key. -/
theorem run_takeOut (order : ScanOrder) (h : Shaped keys s) (kind : Kind) (r n : String) :
    ∃ s', (changeMembers keys (keys.members kind r) none fun ms =>
        let left := Membership.without n ms
        .ok (if left.length = ms.length then none else some left)).run (answerIn order) s
          = (.ok (), s') ∧
      Relisted keys s
        (relist keys s kind r (Membership.without n (membersAt keys s kind r))) s' := by
  have hnodup := h.nodup_membersAt kind r
  rw [changeMembers_none, Plan.run_locked, run_rewriteMembers h]
  dsimp only
  split_ifs with hlength
  · refine ⟨s, rfl, relisted_self h ?_⟩
    exact (Membership.without_of_not_mem (Membership.length_without_eq_iff.mp hlength)).symm
  · exact ⟨_, rfl, relisted_putMembers h (Membership.nodup_without hnodup n)⟩

/-- A name leaves the lists under some keys. -/
theorem run_removeEverywhere (order : ScanOrder) (h : Shaped keys s) (kind : Kind) (n : String)
    (lists : List String) (hlists : ∀ k ∈ lists, ∃ r, k = keys.members kind r) :
    ∃ s', (removeEverywhere keys n lists).run (answerIn order) s = (.ok (), s') ∧
      Relisted keys s (fun kind' r => if kind' = kind ∧ keys.members kind r ∈ lists
        then Membership.without n (membersAt keys s kind' r) else membersAt keys s kind' r) s' := by
  induction lists generalizing s with
  | nil => exact ⟨s, rfl, h, fun _ _ => rfl, fun _ => rfl, fun kind' r => by simp⟩
  | cons k rest ih =>
      obtain ⟨r₀, rfl⟩ := hlists k (by simp)
      obtain ⟨s₁, hrun₁, h₁⟩ := run_takeOut order h kind r₀ n
      obtain ⟨s₂, hrun₂, h₂⟩ := ih h₁.shaped fun k hk => hlists k (by simp [hk])
      refine ⟨s₂, (Plan.run_bind_ok hrun₁).trans hrun₂, h₂.shaped, (h₁.trans h₂).record,
        (h₁.trans h₂).realm, fun kind' r => ?_⟩
      rw [h₂.members, h₁.members, relist]
      by_cases hkind : kind' = kind
      · subst hkind
        by_cases hr : r = r₀
        · subst hr
          simp [Membership.without_without]
        · have hne : keys.members kind' r ≠ keys.members kind' r₀ :=
            fun heq => hr (keys.members_inj heq).2
          simp [hr, hne]
      · simp [hkind]

/-- A name leaves all lists that a pattern finds, in whatever order. -/
theorem run_removeScanned (order : ScanOrder) (h : Shaped keys s) (kind : Kind) (n : String) :
    ∃ s', (removeEverywhere keys n (order.arrange s.keys (keys.membersPattern kind))).run
        (answerIn order) s = (.ok (), s') ∧
      Relisted keys s (fun kind' r => if kind' = kind
        then Membership.without n (membersAt keys s kind' r) else membersAt keys s kind' r) s' := by
  obtain ⟨s', hrun, hs'⟩ := run_removeEverywhere order h kind n
    (order.arrange s.keys (keys.membersPattern kind)) fun k hk =>
      keys.isMatch_membersPattern_iff.mp (order.mem_arrange.mp hk).2
  refine ⟨s', hrun, hs'.shaped, hs'.record, hs'.realm, fun kind' r => ?_⟩
  rw [hs'.members]
  by_cases hkind : kind' = kind
  · subst hkind
    rcases h.members_cases kind' r with ⟨-, hempty⟩ | ⟨entry, hsome, -, -⟩
    · -- an empty list has no key, and there is nothing to take out
      rw [hempty]
      simp [Membership.without]
    · have hmem : keys.members kind' r ∈ order.arrange s.keys (keys.membersPattern kind') :=
        order.mem_arrange.mpr ⟨s.mem_keys.mpr ⟨_, hsome⟩, keys.isMatch_members kind' r⟩
      rw [if_pos ⟨rfl, hmem⟩, if_pos rfl]
  · rw [if_neg (fun hand => hkind hand.1), if_neg hkind]

/-! ### Records -/

theorem run_store (order : ScanOrder) (h : Shaped keys s) (a : kind.Record) (text : String) :
    (store keys a text).run (answerIn order) s
      = match checkId (recordAt keys s kind (Principal.name a)) a with
        | .error e => (.error e, s)
        | .ok () => (.ok (), putRecord keys s kind (Principal.name a) text) := by
  unfold store
  dsimp only
  rw [Plan.run_locked, Plan.run_bind_ok (run_fetch h kind _), Kind.kind_record]
  rcases hcheck : checkId (recordAt keys s kind (Principal.name a)) a with e | u
  · exact Plan.run_bind_error (Plan.run_ofExcept _)
  · exact (Plan.run_bind_ok (Plan.run_ofExcept _)).trans (run_set h _ text)

theorem run_putRealm (h : Shaped keys s) (realm : Realm) :
    (putRealm keys realm).run (answerIn order) s = (.ok (), putDocument keys s realm) :=
  run_set h _ _

end IdentityStore.Keyed
