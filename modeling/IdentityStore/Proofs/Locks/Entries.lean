/-
Which keys have an entry.

A key gets an entry when somebody asks for its lock, and loses it when a guard of it is dropped
and nobody else stands there.  A request that is dropped looks at no entry.  As long as someone
has the guard this does no harm, for the entry goes with the last guard.  But if the lock was
handed to the one who waited, and nobody else is left, the request takes the lock with it and
there is no guard any more whose drop would take the entry out: the key is `Abandoned`, and stays
so until somebody asks for it again.

So the entries are those of the keys in use and of the abandoned ones: `mem_table_iff`.
-/
import IdentityStore.Proofs.Locks.Sharing
import Mathlib.Data.Set.Card

namespace IdentityStore

namespace MutexTable

variable {M : Mutex} {line : M.State → List Nat} {s : MutexTable M} {key : String} {i j : Nat}
  {steps : List LockStep} {e : LockStep}

/-- Somebody holds the lock of a key or waits for it. -/
def InUse (s : MutexTable M) (key : String) : Prop := ∃ i, s.Stands key i

/-- Nobody stands at a key but the one of a number, who has not been given the guard. -/
def WaitsAlone (s : MutexTable M) (key : String) (i : Nat) : Prop :=
  s.place i = some (key, false) ∧ ∀ j, s.Stands key j → j = i

/-- Whoever stood last at a key dropped a request for it, and nobody has asked for it since. -/
def Abandoned (M : Mutex) (steps : List LockStep) (key : String) : Prop :=
  ∃ before i since, steps = before ++ .drop i :: since ∧ (after M before).WaitsAlone key i ∧
    .lock key ∉ since

/-! ### Runs that get longer -/

/-- A key is abandoned by the last step, or it was before and the step does not ask for it. -/
theorem abandoned_concat :
    Abandoned M (steps ++ [e]) key ↔
      (∃ i, e = .drop i ∧ (after M steps).WaitsAlone key i) ∨
        Abandoned M steps key ∧ e ≠ .lock key := by
  constructor
  · rintro ⟨before, i, since, hsteps, halone, hsince⟩
    rcases List.eq_nil_or_concat' since with rfl | ⟨since, last, rfl⟩
    · obtain ⟨rfl, hlast⟩ := List.append_inj' hsteps rfl
      exact .inl ⟨i, List.singleton_inj.mp hlast, halone⟩
    · rw [← List.cons_append, ← List.append_assoc] at hsteps
      obtain ⟨rfl, hlast⟩ := List.append_inj' hsteps rfl
      rw [← List.singleton_inj.mp hlast] at hsince
      rw [List.mem_append, not_or, List.mem_singleton] at hsince
      exact .inr ⟨⟨before, i, since, rfl, halone, hsince.1⟩, Ne.symm hsince.2⟩
  · rintro (⟨i, rfl, halone⟩ | ⟨⟨before, i, since, rfl, halone, hsince⟩, hne⟩)
    · exact ⟨steps, i, [], rfl, halone, List.not_mem_nil⟩
    · refine ⟨before, i, since ++ [e], by rw [List.append_assoc, List.cons_append], halone, ?_⟩
      rw [List.mem_append, not_or, List.mem_singleton]
      exact ⟨hsince, Ne.symm hne⟩

/-! ### One step -/

/-- Who stands at a key after a step: who stood there and has not let go, and whoever asks. -/
theorem Shared.stands_step (hfair : M.Fair line) (h : s.Shared line) :
    (s.step e).2.Stands key j ↔
      e = .lock key ∧ j = s.contenders.length ∨ e ≠ .drop j ∧ s.Stands key j := by
  cases e with
  | lock k =>
    have hplace := (h.lock hfair k).2.place j
    unfold Stands MutexTable.step
    dsimp only
    rw [hplace]
    split_ifs with hj
    · have hnone : s.place j = none := by
        rw [hj, MutexTable.place, contender?_length]
        rfl
      simp only [hnone]
      simp [hj, eq_comm]
    · simp [hj]
  | poll i =>
    rcases hi : s.place i with _ | ⟨k, guarded⟩
    · rw [MutexTable.step, poll_of_place_eq_none hi]
      simp
    · have hplace := (h.poll hfair hi).2.place j
      unfold Stands MutexTable.step
      rw [hplace]
      split_ifs with hj
      · simp [hj, hi]
      · simp
  | drop i =>
    rcases hi : s.place i with _ | ⟨k, guarded⟩
    · rw [MutexTable.step, drop_of_place_eq_none hi]
      have hne : s.Stands key j → i ≠ j := by
        rintro ⟨guarded, hj⟩ rfl
        rw [hi] at hj
        cases hj
      simpa using hne
    · have hplace := (h.drop hfair hi).place j
      unfold Stands MutexTable.step
      dsimp only
      rw [hplace]
      split_ifs with hj
      · simp [hj]
      · simp [Ne.symm hj]

/-- A key has an entry after a step if somebody asks for it, or if it had one and no guard of it
is dropped that nobody stands behind. -/
theorem Shared.mem_table_step (hfair : M.Fair line) (h : s.Shared line) :
    key ∈ (s.step e).2.table ↔
      e = .lock key ∨ key ∈ s.table ∧
        ∀ i, e = .drop i → s.Guards key i → ∃ j, j ≠ i ∧ s.Stands key j := by
  cases e with
  | lock k =>
    have hentry := (h.lock hfair k).2.entry key
    unfold MutexTable.step
    dsimp only
    rw [hentry]
    simp [eq_comm]
  | poll i =>
    rcases hi : s.place i with _ | ⟨k, guarded⟩
    · rw [MutexTable.step, poll_of_place_eq_none hi]
      simp
    · have hentry := (h.poll hfair hi).2.entry key
      unfold MutexTable.step
      rw [hentry]
      simp
  | drop i =>
    rcases hi : s.place i with _ | ⟨k, guarded⟩
    · rw [MutexTable.step, drop_of_place_eq_none hi]
      simp [Guards, hi]
    · have hentry := (h.drop hfair hi).entry key
      unfold MutexTable.step
      dsimp only
      rw [hentry]
      simp only [reduceCtorEq, false_or, LockStep.drop.injEq, Guards]
      refine and_congr_right fun _ => ⟨?_, fun hall hguarded hk => ?_⟩
      · rintro hdrop n rfl hn
        obtain ⟨rfl, rfl⟩ := Prod.mk.inj (Option.some.inj (hi.symm.trans hn))
        exact hdrop rfl rfl
      · subst hguarded hk
        exact hall i rfl hi

/-- Nobody stands at an abandoned key. -/
theorem Abandoned.not_inUse (hfair : M.Fair line) (habandoned : Abandoned M steps key) :
    ¬ (after M steps).InUse key := by
  induction steps using List.reverseRecOn with
  | nil =>
    obtain ⟨before, i, since, hsteps, -⟩ := habandoned
    cases before <;> cases hsteps
  | append_singleton steps e ih =>
    have h := shared_after hfair steps
    rintro ⟨j, hj⟩
    rw [after_concat, h.stands_step hfair] at hj
    rcases abandoned_concat.mp habandoned with ⟨i, rfl, halone⟩ | ⟨hbefore, hne⟩
    · rcases hj with ⟨heq, -⟩ | ⟨hne, hj⟩
      · cases heq
      · exact hne (by rw [halone.2 j hj])
    · rcases hj with ⟨heq, -⟩ | ⟨-, hj⟩
      · exact hne heq
      · exact ih hbefore ⟨j, hj⟩

/-- Whoever lets go and is not the last with its guard leaves others behind, or waited alone. -/
theorem Stands.others_iff (hi : s.Stands key i) :
    (s.Guards key i → ∃ j, j ≠ i ∧ s.Stands key j) ↔
      (∃ j, j ≠ i ∧ s.Stands key j) ∨ s.WaitsAlone key i := by
  by_cases hothers : ∃ j, j ≠ i ∧ s.Stands key j
  · exact ⟨fun _ => .inl hothers, fun _ _ => hothers⟩
  have halone : ∀ j, s.Stands key j → j = i := fun j hj => by_contra fun hne => hothers ⟨j, hne, hj⟩
  obtain ⟨guarded, hplace⟩ := hi
  cases guarded with
  | false =>
    refine ⟨fun _ => .inr ⟨hplace, halone⟩, fun _ hguards => ?_⟩
    rw [Guards, hplace] at hguards
    cases hguards
  | true =>
    refine ⟨fun hleft => .inl (hleft hplace), fun hright => ?_⟩
    rcases hright with hothers' | ⟨hwaits, -⟩
    · exact fun _ => hothers'
    · rw [hplace] at hwaits
      cases hwaits

/-- **The entries** are those of the keys in use and of the abandoned ones. -/
theorem mem_table_iff (hfair : M.Fair line) (steps : List LockStep) (key : String) :
    key ∈ (after M steps).table ↔ (after M steps).InUse key ∨ Abandoned M steps key := by
  induction steps using List.reverseRecOn with
  | nil =>
    have hnone : ¬ Abandoned M [] key := by
      rintro ⟨before, i, since, hsteps, -⟩
      cases before <;> cases hsteps
    simp [hnone, after, run, InUse, Stands, MutexTable.place, contender?]
  | append_singleton steps e ih =>
    have h := shared_after hfair steps
    have huse : (after M (steps ++ [e])).InUse key ↔
        e = .lock key ∨ ∃ j, e ≠ .drop j ∧ (after M steps).Stands key j := by
      unfold InUse
      simp only [after_concat, h.stands_step hfair, exists_or, exists_and_left, exists_eq,
        and_true]
    rw [huse, after_concat, h.mem_table_step hfair, abandoned_concat, or_assoc]
    refine or_congr_right' fun hlock => ?_
    rw [ih, and_iff_left hlock]
    by_cases hdrop : ∃ i, e = .drop i ∧ (after M steps).Stands key i
    · obtain ⟨i, rfl, hi⟩ := hdrop
      have hfresh : ¬ Abandoned M steps key := fun h' => h'.not_inUse hfair ⟨i, hi⟩
      have huse : (after M steps).InUse key := ⟨i, hi⟩
      simpa [hfresh, huse, eq_comm] using hi.others_iff
    · have hothers : ∀ j, (after M steps).Stands key j → e ≠ .drop j :=
        fun j hj heq => hdrop ⟨j, heq, hj⟩
      constructor
      · rintro ⟨⟨j, hj⟩ | habandoned, -⟩
        · exact .inl ⟨j, hothers j hj, hj⟩
        · exact .inr (.inr habandoned)
      · refine fun hright => ⟨?_, fun i heq hi => absurd heq (hothers i hi.stands)⟩
        rcases hright with ⟨j, -, hj⟩ | ⟨i, heq, hi⟩ | habandoned
        · exact .inl ⟨j, hj⟩
        · exact absurd heq (hothers i ⟨_, hi.1⟩)
        · exact .inr habandoned

/-! ### How many there are -/

theorem size_eq_ncard (s : MutexTable M) : s.size = {key | key ∈ s.table}.ncard := by
  have hset : {key | key ∈ s.table} = (s.table.keys.toFinset : Set String) := by
    ext key
    simp
  rw [hset, Set.ncard_coe_finset, List.toFinset_card_of_nodup Std.ExtTreeMap.nodup_keys,
    Std.ExtTreeMap.length_keys, size]

theorem isEmpty_iff (s : MutexTable M) : s.isEmpty = true ↔ ∀ key, key ∉ s.table := by
  rw [isEmpty, Std.ExtTreeMap.isEmpty_iff, Std.ExtTreeMap.eq_empty_iff_forall_not_mem]

/-- **The table counts** the keys in use and the abandoned ones, whatever is done about locks,
and it is empty if there is none of either.  No abandoned key is in use. -/
theorem size_eq_inUse_abandoned (M : Mutex) (line : M.State → List Nat) (hfair : M.Fair line)
    (steps : List LockStep) :
    (after M steps).size =
        {key | (after M steps).InUse key}.ncard + {key | Abandoned M steps key}.ncard ∧
      ((after M steps).isEmpty = true ↔
        ∀ key, ¬ (after M steps).InUse key ∧ ¬ Abandoned M steps key) := by
  have hentries : {key | key ∈ (after M steps).table} =
      {key | (after M steps).InUse key} ∪ {key | Abandoned M steps key} := by
    ext key
    exact mem_table_iff hfair steps key
  have hfinite : {key | key ∈ (after M steps).table}.Finite := by
    refine (after M steps).table.keys.toFinset.finite_toSet.subset fun key hkey => ?_
    simpa using hkey
  rw [hentries] at hfinite
  constructor
  · rw [size_eq_ncard, hentries]
    refine Set.ncard_union_eq ?_ (hfinite.subset Set.subset_union_left)
      (hfinite.subset Set.subset_union_right)
    exact Set.disjoint_right.mpr fun key habandoned => habandoned.not_inUse hfair
  · rw [isEmpty_iff]
    refine forall_congr' fun key => ?_
    rw [mem_table_iff hfair, not_or]

/-- A key is abandoned when its lock is handed to one who never asks again. -/
theorem size_eq_inUse_abandoned_handed :
    Mutex.queue.Fair id ∧
      Abandoned .queue [.lock "k", .lock "k", .drop 0, .drop 1] "k" ∧
      (after .queue [.lock "k", .lock "k", .drop 0, .drop 1]).size =
        {key | (after .queue [.lock "k", .lock "k", .drop 0, .drop 1]).InUse key}.ncard +
          {key | Abandoned .queue [.lock "k", .lock "k", .drop 0, .drop 1] key}.ncard := by
  have hcontenders : (after .queue [.lock "k", .lock "k", .drop 0]).contenders =
      [none, some ⟨"k", 0, false⟩] := by decide +kernel
  have hwaits : (after .queue [.lock "k", .lock "k", .drop 0]).WaitsAlone "k" 1 := by
    refine ⟨by rw [MutexTable.place, contender?, hcontenders]; rfl, fun j hj => ?_⟩
    obtain ⟨c, hc, -⟩ := stands_iff.mp hj
    rw [contender?, hcontenders] at hc
    rcases j with _ | _ | j
    · cases hc
    · rfl
    · cases hc
  exact ⟨Mutex.fair_queue,
    ⟨[.lock "k", .lock "k", .drop 0], 1, [], rfl, hwaits, List.not_mem_nil⟩,
    (size_eq_inUse_abandoned .queue id Mutex.fair_queue _).1⟩

/-- An entry is left for a key that nobody holds or waits for. -/
theorem entry_outlives_use :
    ¬ ∀ steps,
      (after .queue steps).size = {key | (after .queue steps).InUse key}.ncard ∧
        ((after .queue steps).isEmpty = true ↔ ∀ key, ¬ (after .queue steps).InUse key) := by
  intro hall
  have hcontenders : (after .queue [.lock "k", .lock "k", .drop 0, .drop 1]).contenders =
      [none, none] := by decide +kernel
  have hfull : (after .queue [.lock "k", .lock "k", .drop 0, .drop 1]).isEmpty = false := by
    decide +kernel
  refine absurd ((hall _).2.mpr fun key hkey => ?_) (hfull ▸ Bool.false_ne_true)
  obtain ⟨i, hi⟩ := hkey
  obtain ⟨c, hc, -⟩ := stands_iff.mp hi
  rw [contender?, hcontenders] at hc
  rcases i with _ | _ | i <;> cases hc

end MutexTable

end IdentityStore
