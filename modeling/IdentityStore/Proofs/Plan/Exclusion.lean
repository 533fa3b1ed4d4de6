/-
No lock is held twice.

The lock of a key belongs to the head of its line.  Asking for a lock never changes who
stands at the head of a line, unless the line was empty, and leaving a line only changes its
head if the head leaves.  So if every worker owns what it holds, it goes on owning it until
it gives it back, and two workers that hold the lock of one key are one: `Exclusive`.

All that this needs of a plan is that it asks for no lock that it holds already.
-/
import IdentityStore.Proofs.Plan.Invariant

namespace IdentityStore

/-! ### Lines -/

namespace LockTable

variable {ι : Type} {t : LockTable ι} {k key : String} {i j : ι}

/-- Who owns the lock of a key. -/
def owner (t : LockTable ι) (key : String) : Option ι := (t.line key).queue.head?

theorem line_put (t : LockTable ι) (key : String) (l : Line ι) (k : String) :
    (t.put key l).line k = if key = k then l else t.line k := by
  rw [line, put, Std.ExtTreeMap.getElem?_insert]
  simp only [Std.LawfulEqCmp.compare_eq_iff_eq]
  split_ifs <;> rfl

theorem line_erase (t : LockTable ι) (key k : String) :
    line ⟨t.lines.erase key⟩ k = if key = k then ⟨[], false⟩ else t.line k := by
  rw [line, Std.ExtTreeMap.getElem?_erase]
  simp only [Std.LawfulEqCmp.compare_eq_iff_eq]
  split_ifs <;> rfl

theorem owner_put (t : LockTable ι) (key : String) (l : Line ι) (k : String) :
    (t.put key l).owner k = if key = k then l.queue.head? else t.owner k := by
  rw [owner, line_put]
  split_ifs <;> rfl

/-- Whoever asks for a lock takes it from nobody. -/
theorem owner_lock (h : t.owner k = some j) : (t.lock key i).2.owner k = some j := by
  unfold lock
  dsimp only
  split
  · rename_i hqueue
    rw [owner_put]
    split_ifs with hkey
    · subst hkey
      rw [owner, hqueue] at h
      cases h
    · exact h
  · rw [owner_put]
    split_ifs with hkey
    · subst hkey
      rw [List.head?_append]
      rw [owner] at h
      rw [h]
      rfl
    · exact h

/-- A lock that is had for the asking had no owner. -/
theorem owner_of_lock (h : (t.lock key i).1 = .held) :
    t.owner key = none ∧ (t.lock key i).2.owner key = some i := by
  unfold lock at h ⊢
  dsimp only at h ⊢
  split at h
  · rename_i hqueue
    refine ⟨by rw [owner, hqueue]; rfl, ?_⟩
    rw [owner_put, if_pos rfl]
    rfl
  · cases h

section

variable [DecidableEq ι]

/-- Asking again changes no owner. -/
theorem owner_poll (t : LockTable ι) (key : String) (i : ι) (k : String) :
    (t.poll key i).2.owner k = t.owner k := by
  unfold poll
  dsimp only
  split
  · rfl
  · rename_i hqueue
    split_ifs
    · rw [owner_put]
      split_ifs with hkey
      · subst hkey
        rw [owner, hqueue]
      · rfl
    · rfl
    · rfl

/-- Whoever is told to hold a lock owns it. -/
theorem owner_of_poll (h : (t.poll key i).1 = some .held) : t.owner key = some i := by
  unfold poll at h
  dsimp only at h
  split at h
  · cases h
  · rename_i hqueue
    split_ifs at h with howner
    · rw [owner, hqueue, howner]
      rfl
    · cases h

/-- Whoever leaves a line takes the lock from nobody else. -/
theorem owner_leave (h : t.owner k = some j) (hne : key = k → i ≠ j) :
    (t.leave key i).owner k = some j := by
  unfold leave
  dsimp only
  split
  · exact h
  · rename_i first rest hqueue
    have hfirst : key = k → first = j := by
      rintro rfl
      rw [owner, hqueue] at h
      exact Option.some.inj h
    split_ifs with hself hlast
    · rw [owner, line_erase, if_neg fun hkey => hne hkey (hself ▸ hfirst hkey)]
      exact h
    · rw [owner_put, if_neg fun hkey => hne hkey (hself ▸ hfirst hkey)]
      exact h
    · rw [owner_put]
      split_ifs with hkey
      · exact congrArg some (hfirst hkey)
      · exact h

/-- Whoever leaves some lines takes no lock from anybody else. -/
theorem owner_foldl_leave (h : t.owner k = some j) (hne : i ≠ j) (lines : List String) :
    (lines.foldl (fun t key => t.leave key i) t).owner k = some j := by
  induction lines generalizing t with
  | nil => exact h
  | cons key rest ih => exact ih (owner_leave h fun _ => hne)

end

end LockTable

/-! ### Crews -/

namespace Crew

variable {α σ : Type} {c : Crew σ α}

/-- Every worker owns what it holds, and holds it once. -/
structure Exclusive (c : Crew σ α) : Prop where
  owner : ∀ (i : Nat) (w : Worker α), c.workers[i]? = some w →
    ∀ key ∈ w.held, c.locks.owner key = some i
  once : ∀ (i : Nat) (w : Worker α), c.workers[i]? = some w → w.held.Nodup

/-- **No lock is held twice.** -/
theorem Exclusive.eq_of_held (h : c.Exclusive) {i j : Nat} {w v : Worker α} {key : String}
    (hw : c.workers[i]? = some w) (hv : c.workers[j]? = some v) (hkey : key ∈ w.held)
    (hkey' : key ∈ v.held) : i = j :=
  Option.some.inj ((h.owner i w hw key hkey).symm.trans (h.owner j v hv key hkey'))

theorem exclusive_start (store : σ) (plans : List (Plan α)) : (start store plans).Exclusive := by
  have hheld : ∀ (i : Nat) (w : Worker α), (start store plans).workers[i]? = some w →
      w.held = [] := by
    intro i w hw
    obtain ⟨p, -, rfl⟩ := List.mem_map.mp (List.mem_of_getElem? hw)
    rfl
  refine ⟨fun i w hw key hkey => ?_, fun i w hw => ?_⟩
  · rw [hheld i w hw] at hkey
    cases hkey
  · rw [hheld i w hw]
    exact List.nodup_nil

theorem workers_set {i : Nat} {w : Worker α} {j : Nat} {v : Worker α}
    (h : (c.workers.set i w)[j]? = some v) :
    (j = i ∧ v = w) ∨ (j ≠ i ∧ c.workers[j]? = some v) := by
  rw [List.getElem?_set] at h
  split_ifs at h with hij
  · exact .inl ⟨hij.symm, (Option.some.inj h).symm⟩
  · exact .inr ⟨fun heq => hij heq.symm, h⟩

/-- One worker changes what it holds and takes no lock from the others. -/
theorem Exclusive.set (h : c.Exclusive) (store : σ) {locks : LockTable Nat} {i : Nat}
    {w : Worker α} (howner : ∀ key ∈ w.held, locks.owner key = some i) (honce : w.held.Nodup)
    (hothers : ∀ key j, j ≠ i → c.locks.owner key = some j → locks.owner key = some j) :
    Exclusive { c with store, locks, workers := c.workers.set i w } := by
  refine ⟨fun j v hv => ?_, fun j v hv => ?_⟩
  · rcases workers_set hv with ⟨rfl, rfl⟩ | ⟨hne, hv⟩
    · exact howner
    · exact fun key hkey => hothers key j hne (h.owner j v hv key hkey)
  · rcases workers_set hv with ⟨rfl, rfl⟩ | ⟨hne, hv⟩
    · exact honce
    · exact h.once j v hv

/-- A step of a worker that asks for no lock that it holds. -/
theorem Exclusive.step (h : c.Exclusive) (answer : Plan.Answering σ) {i : Nat}
    (hfresh : ∀ w key next, c.workers[i]? = some w → w.plan = some (.acquire key next) →
      key ∉ w.held) : (c.step answer i).Exclusive := by
  unfold Crew.step
  rcases hworker : c.workers[i]? with _ | w
  · exact h
  dsimp only
  rcases hplan : w.plan with _ | p
  · exact h
  have howner := h.owner i w hworker
  have honce := h.once i w hworker
  cases p with
  | done result => exact h
  | call r next => exact h.set _ howner honce fun _ _ _ hj => hj
  | acquire key next =>
      have hkey := hfresh w key next hworker hplan
      dsimp only
      by_cases hwaiting : w.waiting = true
      · rw [if_pos hwaiting]
        have hothers : ∀ k j, c.locks.owner k = some j →
            (c.locks.poll key i).2.owner k = some j := by
          intro k j hj
          rw [LockTable.owner_poll]
          exact hj
        split_ifs with hheld
        · refine h.set _ (fun k hk => ?_) (List.nodup_cons.mpr ⟨hkey, honce⟩)
            fun k j _ => hothers k j
          rcases List.mem_cons.mp hk with rfl | hk
          · exact hothers _ _ (LockTable.owner_of_poll hheld)
          · exact hothers _ _ (howner k hk)
        · exact h.set _ (fun k hk => hothers _ _ (howner k hk)) honce fun k j _ => hothers k j
      · rw [if_neg hwaiting]
        dsimp only
        split_ifs with hheld
        · refine h.set _ (fun k hk => ?_) (List.nodup_cons.mpr ⟨hkey, honce⟩)
            fun k j _ => LockTable.owner_lock
          rcases List.mem_cons.mp hk with rfl | hk
          · exact (LockTable.owner_of_lock (Option.some.inj hheld)).2
          · exact LockTable.owner_lock (howner k hk)
        · exact h.set _ (fun k hk => LockTable.owner_lock (howner k hk)) honce
            fun k j _ => LockTable.owner_lock
  | release key next =>
      refine h.set _ (fun k hk => ?_) (honce.erase key) fun k j hne hj => ?_
      · have hk' := (List.Nodup.mem_erase_iff honce).mp hk
        exact LockTable.owner_leave (howner k hk'.2) fun hkey => absurd hkey.symm hk'.1
      · exact LockTable.owner_leave hj fun _ heq => hne heq.symm

theorem Exclusive.dismiss (h : c.Exclusive) (i : Nat) : (c.dismiss i).Exclusive := by
  unfold Crew.dismiss
  rcases c.workers[i]? with _ | w
  · exact h
  · exact h.set _ (fun key hkey => nomatch hkey) List.nodup_nil
      fun key j hne hj => LockTable.owner_foldl_leave hj (fun heq => hne heq.symm) _

end Crew

end IdentityStore
