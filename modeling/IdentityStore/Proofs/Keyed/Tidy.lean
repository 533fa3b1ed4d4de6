/-
Operations never lock each other out, and pass on what a store refuses.

An operation holds one lock at a time, but for the removal of a realm, which takes the lock of
the list of its clients and then that of the list of its users.  So it is enough to rank the
lists of users above everything else: no realm, whatever its name, has a list that is a list
of clients and a list of users, as the two end differently.

Wherever a call fails, all that comes after it is that locks are given back.
-/
import IdentityStore.Proofs.Keyed.SideBySide
import IdentityStore.Proofs.Plan.Failure

namespace IdentityStore.Keyed

/-! ### The order of locks -/

/-- The locks of lists of users come after all others. -/
def lockRank (key : String) : Nat :=
  if Kind.user.suffix.toList.isSuffixOf key.toList then 1 else 0

theorem lockRank_user (front : String) : lockRank (front ++ Kind.user.suffix) = 1 := by
  rw [lockRank, if_pos]
  rw [List.isSuffixOf_iff_suffix, String.toList_append]
  exact List.suffix_append ..

theorem lockRank_client (front : String) : lockRank (front ++ Kind.client.suffix) = 0 := by
  rw [lockRank, if_neg]
  rw [List.isSuffixOf_iff_suffix]
  rintro ⟨cs, hcs⟩
  have hsame : String.ofList cs ++ Kind.user.suffix = front ++ Kind.client.suffix := by
    rw [← String.toList_inj, String.toList_append, String.toList_ofList, hcs]
  cases (KeySpace.append_suffix_inj hsame).1

variable {keys : KeySpace} {rank : String → Nat} {α : Type} [Principal α]

/-! ### Tidy operations -/

theorem tidy_changeMembers (key : String) (realm : Option String)
    (change : List Member → Except StorageError (Option (List Member))) :
    (changeMembers keys key realm change).Tidy rank [] [] := by
  have hrewrite : (rewriteMembers key change).Tidy rank [key] [key] := by
    refine Plan.tidy_bind (looks_loadMembers key).tidy ?_
    intro ms
    refine Plan.tidy_bind (Plan.tidy_ofExcept _) ?_
    intro changed
    cases changed with
    | none => exact Plan.tidy_pure _
    | some ms' => exact Plan.tidy_ask _
  have hfirst : ∀ k ∈ ([] : List String), rank k < rank key := by simp
  cases realm with
  | none =>
      rw [changeMembers_none]
      exact Plan.tidy_locked hfirst hrewrite
  | some name =>
      rw [changeMembers_some]
      exact Plan.tidy_locked hfirst
        (Plan.tidy_bind (looks_requireRealm name).tidy fun _ => hrewrite)

theorem tidy_removeEverywhere (n : String) (lists : List String) :
    (removeEverywhere keys n lists).Tidy rank [] [] := by
  induction lists with
  | nil => exact Plan.tidy_pure _
  | cons key rest ih => exact Plan.tidy_bind (tidy_changeMembers key none _) fun _ => ih

theorem tidy_store (a : α) (text : String) : (store keys a text).Tidy rank [] [] := by
  refine Plan.tidy_locked (by simp) (Plan.tidy_bind (looks_fetch α _).tidy ?_)
  intro stored
  exact Plan.tidy_bind (Plan.tidy_ofExcept _) fun _ => Plan.tidy_ask _

theorem tidy_storeAll (as : List α) : (storeAll keys as).Tidy rank [] [] := by
  induction as with
  | nil => exact Plan.tidy_pure _
  | cons a rest ih => exact Plan.tidy_bind (tidy_store a _) fun _ => ih

variable (α) in
theorem tidy_create (payload : List UInt8) : (create keys α payload).Tidy rank [] [] :=
  Plan.tidy_bind (Plan.tidy_ofExcept _) fun a =>
    Plan.tidy_bind (Plan.tidy_ofExcept _) fun text =>
      Plan.tidy_bind (tidy_store a text) fun _ => Plan.tidy_pure _

variable (α) in
theorem tidy_update (n : String) (payload : List UInt8) :
    (update keys α n payload).Tidy rank [] [] := by
  refine Plan.tidy_bind (Plan.tidy_ofExcept _) ?_
  intro a
  refine Plan.tidy_bind (looks_get α n).tidy ?_
  intro stored
  split_ifs
  · exact Plan.tidy_fail _
  · exact Plan.tidy_bind (Plan.tidy_ofExcept _) fun _ =>
      Plan.tidy_bind (Plan.tidy_ofExcept _) fun _ =>
        Plan.tidy_bind (Plan.tidy_ask _) fun _ => Plan.tidy_pure _

theorem tidy_delete (kind : Kind) (n : String) : (delete keys kind n).Tidy rank [] [] := by
  refine Plan.tidy_bind (Plan.tidy_ask _) ?_
  intro found
  cases found
  · exact Plan.tidy_fail _
  · exact Plan.tidy_bind (Plan.tidy_ask _) fun lists =>
      Plan.tidy_bind (tidy_removeEverywhere n lists) fun _ =>
        Plan.tidy_bind (Plan.tidy_ask _) fun _ => Plan.tidy_pure _

variable (α) in
theorem tidy_add (r n : String) : (add keys α r n).Tidy rank [] [] :=
  Plan.tidy_bind (looks_requireRealm r).tidy fun _ =>
    Plan.tidy_bind (looks_get α n).tidy fun _ => tidy_changeMembers _ _ _

theorem tidy_createRealm (payload : List UInt8) : (createRealm keys payload).Tidy rank [] [] := by
  refine Plan.tidy_bind (Plan.tidy_ofExcept _) ?_
  intro realm
  refine Plan.tidy_bind (Plan.tidy_ofExcept _) ?_
  intro _
  refine Plan.tidy_bind (looks_realmExists _).tidy ?_
  intro found
  split_ifs
  · exact Plan.tidy_fail _
  · exact Plan.tidy_bind (looks_checkNewMembers _ [] _).tidy fun _ =>
      Plan.tidy_bind (looks_checkNewMembers _ [] _).tidy fun _ =>
        Plan.tidy_bind (tidy_storeAll _) fun _ =>
          Plan.tidy_bind (tidy_storeAll _) fun _ =>
            Plan.tidy_bind (tidy_changeMembers _ _ _) fun _ =>
              Plan.tidy_bind (tidy_changeMembers _ _ _) fun _ =>
                Plan.tidy_bind (Plan.tidy_ask _) fun _ => Plan.tidy_pure _

theorem tidy_updateRealm (n : String) (payload : List UInt8) :
    (updateRealm keys n payload).Tidy rank [] [] := by
  refine Plan.tidy_bind (Plan.tidy_ofExcept _) ?_
  intro realm
  split_ifs
  · exact Plan.tidy_fail _
  · exact Plan.tidy_bind (looks_requireRealm n).tidy fun _ =>
      Plan.tidy_bind (Plan.tidy_ask _) fun _ => Plan.tidy_pure _

/-- Whoever removes a realm holds the lock of the one list while it asks for that of the other. -/
theorem tidy_deleteRealm (n : String) : (deleteRealm keys n).Tidy lockRank [] [] := by
  have horder : ∀ k ∈ [keys.members .client n], lockRank k < lockRank (keys.members .user n) := by
    intro k hk
    rw [List.mem_singleton.mp hk, KeySpace.members, KeySpace.members, lockRank_client,
      lockRank_user]
    exact Nat.zero_lt_one
  refine Plan.tidy_bind (looks_requireRealm n).tidy ?_
  intro _
  exact Plan.tidy_locked (by simp) (Plan.tidy_locked horder
    (Plan.tidy_bind (Plan.tidy_ask _) fun _ => Plan.tidy_pure _))

/-- **Every operation is tidy.** -/
theorem tidy_plan (keys : KeySpace) (op : Operation) : (plan keys op).Tidy lockRank [] [] := by
  have hanswer : ∀ {β : Type} {p : Plan β} {f : β → Answer}, p.Tidy lockRank [] [] →
      (do return f (← p) : Plan Answer).Tidy lockRank [] [] :=
    fun hp => Plan.tidy_bind hp fun _ => Plan.tidy_pure _
  cases op with
  | getRealm n => exact hanswer (looks_getRealm n).tidy
  | getRealmWithMembers n => exact hanswer (looks_getRealmWithMembers n).tidy
  | createRealm payload => exact hanswer (tidy_createRealm payload)
  | updateRealm n payload => exact hanswer (tidy_updateRealm n payload)
  | deleteRealm n => exact hanswer (tidy_deleteRealm n)
  | get kind n => exact hanswer (looks_get kind.Record n).tidy
  | getFrom kind r n => exact hanswer (looks_getFrom kind.Record r n).tidy
  | getUserById r id => exact hanswer (looks_getUserById r id).tidy
  | getAllFrom kind r => exact hanswer (looks_getAllFrom kind.Record r).tidy
  | create kind payload => exact hanswer (tidy_create kind.Record payload)
  | update kind n payload => exact hanswer (tidy_update kind.Record n payload)
  | delete kind n => exact hanswer (tidy_delete kind n)
  | add kind r n => exact hanswer (tidy_add kind.Record r n)
  | remove kind r n => exact hanswer (tidy_changeMembers _ _ _)

/-- Operations that share a store keep the lines of the locks in order. -/
theorem orderly_events {σ : Type} (keys : KeySpace) (answer : Plan.Answering σ) (store : σ)
    (ops : List Operation) (events : List Crew.Event) :
    (events.foldl (Crew.advance answer) (Crew.start store (ops.map (plan keys)))).Orderly
      lockRank := by
  refine (Crew.orderly_start store fun p hp => ?_).events answer events
  obtain ⟨op, -, rfl⟩ := List.mem_map.mp hp
  exact tidy_plan keys op

/-! ### No operation waits for ever -/

/-- **Operations never lock each other out**, whatever the store holds and however it answers,
in whatever order their steps come, and wherever calls fail or operations are given up.  As
long as one is left that is not done, one of them is not blocked by another, and its next step
takes it further; and where none is left no lock is held. -/
theorem never_deadlocked {σ : Type} (keys : KeySpace) (answer : Plan.Answering σ) (store : σ)
    (ops : List Operation) (events : List Crew.Event) :
    let crew := events.foldl (Crew.advance answer) (Crew.start store (ops.map (plan keys)))
    (crew.isFinished = false → ∃ i w, crew.workers[i]? = some w ∧ w.isFinished = false ∧
      ¬ crew.Blocked i ∧ ∃ v p q, (crew.step answer i).workers[i]? = some v ∧
        w.plan = some p ∧ v.plan = some q ∧ p.Leaves q) ∧
    (crew.isFinished = true → ∀ key, crew.locks.owner key = none) := by
  intro crew
  have horderly : crew.Orderly lockRank := orderly_events keys answer store ops events
  refine ⟨fun hleft => ?_, horderly.owner_eq_none⟩
  obtain ⟨i, w, hw, hunfinished, hfree⟩ :=
    horderly.exists_not_blocked (Bool.eq_false_iff.mp hleft)
  exact ⟨i, w, hw, hunfinished, hfree, horderly.goes_on answer hw hunfinished hfree⟩

/-! ### Calls that fail -/

section

variable {order : ScanOrder} {s : MemoryStore} {ops : List Operation} {events : List Crew.Event}
  {event : Crew.Event} {i : Nat} {x : Exchange MemoryStore} {cause : StoreError}

/-- A call that fails leaves the store as it is. -/
theorem store_of_failed
    (hcall : (crewAfter keys order s ops events).exchangeAt? (MemoryStore.answerIn order) event
      = some (i, x)) (hfails : x.reply = .error cause) :
    ((crewAfter keys order s ops events).advance (MemoryStore.answerIn order) event).store
      = (crewAfter keys order s ops events).store := by
  have hmem : (i, x) ∈ logAfter keys order s ops (events ++ [event]) := by
    rw [logAfter_append]
    refine List.mem_append_right _ (List.mem_append_left _ ?_)
    rw [hcall]
    exact List.mem_singleton_self _
  obtain ⟨w, next, -, -, hbefore, hafter⟩ := Crew.exchangeAt?_eq_some hcall
  rw [hafter, ← hbefore]
  rcases answered_cases (answered_of_log hmem) with ⟨-, hsame⟩ | ⟨hok, -⟩
  · exact hsame
  · rw [hfails] at hok
    cases hok

end

/-- **A call that fails is the last of its operation**, whatever operations there are and
whatever the store holds.  It leaves the store as it is; the operation makes no call after it,
has given back its locks after as many steps as it holds locks, and ends with the error of the
store.  A store that cannot be reached, or not in time, shows as unavailable. -/
theorem failed_call_ends (keys : KeySpace) (order : ScanOrder) (s : MemoryStore)
    (ops : List Operation) (events : List Crew.Event) {event : Crew.Event} {i : Nat}
    {x : Exchange MemoryStore} {cause : StoreError}
    (hcall : (crewAfter keys order s ops events).exchangeAt? (MemoryStore.answerIn order) event
      = some (i, x))
    (hfails : x.reply = .error cause) :
    let before := crewAfter keys order s ops events
    let after := crewAfter keys order s ops (events ++ [event])
    after.store = before.store ∧
    (∀ later, Log.own i (after.log (MemoryStore.answerIn order) later) = []) ∧
    (∃ w, after.workers[i]? = some w ∧ ∀ later, .dismiss i ∉ later →
      w.held.length ≤ later.countP (Crew.Event.moves i) →
      ∃ v, (crewAfter keys order s ops (events ++ event :: later)).workers[i]? = some v ∧
        v.result? = some (.error (.ofStore cause)) ∧ v.held = [] ∧
        ∀ key, (crewAfter keys order s ops (events ++ event :: later)).locks.owner key ≠ some i) ∧
    (cause.isUnavailable = true → StorageError.ofStore cause = .unavailable cause.message) := by
  intro before after
  have hafter : after = before.advance (MemoryStore.answerIn order) event := List.foldl_append ..
  obtain ⟨w, p, hw, hplan, hquits⟩ :=
    (orderly_events keys (MemoryStore.answerIn order) s ops events).quits_of_failed hcall hfails
  rw [← crewAfter, ← hafter] at hw
  refine ⟨?_, fun later => ?_, ⟨w, hw, fun later hstays hmoves => ?_⟩, fun hpasses => ?_⟩
  · rw [hafter]
    exact store_of_failed hcall hfails
  · exact (Crew.quitting_of_quits hw hplan hquits).own_log _ later
  · obtain ⟨v, hv, hresult, hheld⟩ :=
      Crew.done_of_quits (MemoryStore.answerIn order) hw hplan hquits hstays hmoves
    have hlater : crewAfter keys order s ops (events ++ event :: later)
        = later.foldl (Crew.advance (MemoryStore.answerIn order)) after := by
      rw [hafter]
      exact List.foldl_append ..
    rw [← hlater] at hv
    refine ⟨v, hv, hresult, hheld, fun key howner => ?_⟩
    have horderly : (crewAfter keys order s ops (events ++ event :: later)).Orderly lockRank :=
      orderly_events keys (MemoryStore.answerIn order) s ops _
    have hdone : v.isFinished = true := by simp [Worker.isFinished, hresult]
    exact horderly.not_stands hv hdone key
      ((horderly.mem_queue_iff hv key).mp (List.mem_of_mem_head? howner))
  · rw [StorageError.ofStore, if_pos hpasses]

/-- The look at the realm fails while the lock of its list is held, and then the lock is given
back. -/
theorem failed_call_ends_acme :
    let after := crewAfter .default .rising {} [.remove .client "acme" "web"]
    ∃ x, (after [.step 0]).exchangeAt? (MemoryStore.answerIn .rising) (.fail 0 .timeout)
        = some (0, x) ∧ x.reply = .error .timeout ∧
      (after [.step 0, .fail 0 .timeout]).store = (after [.step 0]).store ∧
      ∃ v, (after [.step 0, .fail 0 .timeout, .step 0]).workers[0]? = some v ∧
        v.result? = some (.error (.ofStore .timeout)) ∧ v.held = [] := by
  intro after
  obtain ⟨x, hcall, hfails⟩ : ∃ x, (after [.step 0]).exchangeAt? (MemoryStore.answerIn .rising)
      (.fail 0 .timeout) = some (0, x) ∧ x.reply = .error .timeout := ⟨_, rfl, rfl⟩
  have hend := failed_call_ends .default .rising {} [.remove .client "acme" "web"] [.step 0]
    hcall hfails
  refine ⟨x, hcall, hfails, hend.1, ?_⟩
  obtain ⟨w, hw, hdone⟩ := hend.2.2.1
  have hheld : w.held.length = 1 := by
    cases hw
    rfl
  obtain ⟨v, hv, hresult, hnone, -⟩ := hdone [.step 0] (by simp) (by rw [hheld]; decide)
  exact ⟨v, hv, hresult, hnone⟩

end IdentityStore.Keyed
