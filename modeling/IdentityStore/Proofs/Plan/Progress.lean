/-
Tidy workers do not wait for each other for ever.

The line of a key holds those who hold its lock and those who wait for it, and nobody else:
`Orderly`.  Asking, asking again, giving back and being sent away all keep it so, and whoever
is done stands in no line.

Hence the head of a line is never idle.  It has been told that it holds the lock, or it will
be told when it asks again, and then it is not blocked; or it holds the lock and is blocked
in another line.  As tidy workers hold only locks that rank below the one they wait for, the
worker that waits for the highest rank is not kept waiting by one that is blocked itself.
-/
import IdentityStore.Proofs.Plan.Exclusion
import IdentityStore.Proofs.Plan.Tidy
import Mathlib.Data.Finset.Max

namespace IdentityStore

/-! ### Lines -/

namespace LockTable

variable {ι : Type} {t : LockTable ι} {k key : String} {i j : ι}

/-- Whoever asks for a lock stands last in its line. -/
theorem queue_lock (t : LockTable ι) (key : String) (i : ι) (k : String) :
    ((t.lock key i).2.line k).queue
      = if key = k then (t.line k).queue ++ [i] else (t.line k).queue := by
  unfold lock
  dsimp only
  split
  · rename_i hqueue
    rw [line_put]
    split_ifs with hkey
    · subst hkey
      rw [hqueue]
      rfl
    · rfl
  · rw [line_put]
    split_ifs with hkey
    · subst hkey
      rfl
    · rfl

/-- A lock that nobody wants is had for the asking. -/
theorem lock_of_free (h : (t.line key).queue = []) (i : ι) : (t.lock key i).1 = .held := by
  unfold lock
  dsimp only
  rw [h]

variable [DecidableEq ι]

/-- Asking again changes no line. -/
theorem queue_poll (t : LockTable ι) (key : String) (i : ι) (k : String) :
    ((t.poll key i).2.line k).queue = (t.line k).queue := by
  unfold poll
  dsimp only
  split
  · rfl
  · rename_i hqueue
    split_ifs
    · rw [line_put]
      split_ifs with hkey
      · subst hkey
        exact hqueue.symm
      · rfl
    · rfl
    · rfl

/-- The owner of a lock is told so when it asks again. -/
theorem poll_of_owner (h : t.owner key = some i) : (t.poll key i).1 = some .held := by
  unfold poll
  dsimp only
  split
  · rename_i hqueue
    rw [owner, hqueue] at h
    cases h
  · rename_i hqueue
    rw [owner, hqueue] at h
    rw [if_pos (Option.some.inj h)]

/-- Whoever leaves a line is taken out of it. -/
theorem queue_leave (t : LockTable ι) (key : String) (i : ι) (k : String) :
    ((t.leave key i).line k).queue
      = if key = k then (t.line k).queue.erase i else (t.line k).queue := by
  unfold leave
  dsimp only
  split
  · rename_i hqueue
    split_ifs with hkey
    · subst hkey
      rw [hqueue]
      rfl
    · rfl
  · rename_i first rest hqueue
    by_cases hkey : key = k
    · subst hkey
      rw [if_pos rfl, hqueue]
      split_ifs with hself hlast
      · rw [line_erase, if_pos rfl, hself, List.erase_cons_head, hlast.2]
      · rw [line_put, if_pos rfl, hself, List.erase_cons_head]
      · rw [line_put, if_pos rfl, List.erase_cons_tail (by simpa using hself)]
    · rw [if_neg hkey]
      split_ifs
      · rw [line_erase, if_neg hkey]
      · rw [line_put, if_neg hkey]
      · rw [line_put, if_neg hkey]

/-- Whoever leaves some lines, in which everybody stands once, is left in the others only. -/
theorem mem_queue_foldl_leave {lines : List String} (honce : ∀ k, (t.line k).queue.Nodup) :
    (∀ k, j ∈ ((lines.foldl (fun t key => t.leave key i) t).line k).queue ↔
        j ∈ (t.line k).queue ∧ (k ∈ lines → j ≠ i)) ∧
      ∀ k, ((lines.foldl (fun t key => t.leave key i) t).line k).queue.Nodup := by
  induction lines generalizing t with
  | nil => simpa using honce
  | cons key rest ih =>
      have honce' : ∀ k, ((t.leave key i).line k).queue.Nodup := by
        intro k
        rw [queue_leave]
        split_ifs
        · exact (honce k).erase i
        · exact honce k
      obtain ⟨hmem, hnodup⟩ := ih honce'
      refine ⟨fun k => ?_, hnodup⟩
      show j ∈ ((rest.foldl (fun t key => t.leave key i) (t.leave key i)).line k).queue ↔ _
      rw [hmem, queue_leave]
      by_cases hkey : key = k
      · rw [if_pos hkey, (honce k).mem_erase_iff]
        simp only [hkey, List.mem_cons]
        tauto
      · rw [if_neg hkey, List.mem_cons]
        have hne : k ≠ key := fun heq => hkey heq.symm
        tauto

end LockTable

/-! ### Workers in lines -/

namespace Worker

variable {α : Type} {w : Worker α} {key : String}

/-- The worker holds the lock of a key, or has asked for it and waits. -/
def Stands (w : Worker α) (key : String) : Prop :=
  key ∈ w.held ∨ (w.waiting = true ∧ ∃ next, w.plan = some (.acquire key next))

theorem stands_iff_of_not_waiting (h : w.waiting = false) : w.Stands key ↔ key ∈ w.held := by
  simp [Stands, h]

theorem stands_iff_of_acquire {k : String} {next : Plan α} (hplan : w.plan = some (.acquire k next))
    (hwaiting : w.waiting = true) : w.Stands key ↔ key ∈ k :: w.held := by
  rw [Stands, hplan, List.mem_cons]
  constructor
  · rintro (hheld | ⟨-, next', hnext⟩)
    · exact .inr hheld
    · cases hnext
      exact .inl rfl
  · rintro (rfl | hheld)
    · exact .inr ⟨hwaiting, next, rfl⟩
    · exact .inl hheld

/-- The key of the lock that the worker waits for. -/
def awaited (w : Worker α) : List String :=
  match w.plan with
  | some (.acquire key _) => if w.waiting then [key] else []
  | _ => []

theorem mem_of_stands (h : w.Stands key) : key ∈ w.awaited ++ w.held := by
  rcases h with hheld | ⟨hwaiting, next, hplan⟩
  · exact List.mem_append_right _ hheld
  · simp [awaited, hplan, hwaiting]

end Worker

namespace Crew

variable {α σ : Type} {rank : String → Nat} {c : Crew σ α} {i : Nat} {w : Worker α}

/-- The plans of all workers are tidy, and the line of a key holds those who stand in it. -/
structure Orderly (rank : String → Nat) (c : Crew σ α) : Prop where
  exclusive : c.Exclusive
  plans : ∀ (i : Nat) (w : Worker α) (p : Plan α), c.workers[i]? = some w → w.plan = some p →
    p.Tidy rank [] w.held
  /-- Whoever has been sent away holds nothing. -/
  gone : ∀ (i : Nat) (w : Worker α), c.workers[i]? = some w → w.plan = none → w.held = []
  /-- Only who wants a lock next waits. -/
  wants : ∀ (i : Nat) (w : Worker α), c.workers[i]? = some w → w.waiting = true →
    ∃ key next, w.plan = some (.acquire key next)
  lines : ∀ (key : String) (i : Nat), i ∈ (c.locks.line key).queue ↔
    ∃ w, c.workers[i]? = some w ∧ w.Stands key
  once : ∀ key : String, (c.locks.line key).queue.Nodup

theorem orderly_start (store : σ) {plans : List (Plan α)}
    (h : ∀ p ∈ plans, p.Tidy rank [] []) : Orderly rank (start store plans) := by
  have hworker : ∀ (i : Nat) (w : Worker α), (start store plans).workers[i]? = some w →
      ∃ p ∈ plans, w = { plan := some p } := by
    intro i w hw
    obtain ⟨p, hp, rfl⟩ := List.mem_map.mp (List.mem_of_getElem? hw)
    exact ⟨p, hp, rfl⟩
  have hnone : ∀ key : String, ((start store plans).locks.line key).queue = [] := by
    intro key
    simp [start, LockTable.line]
  refine ⟨exclusive_start store plans, ?_, ?_, ?_, ?_, ?_⟩
  · intro i w p hw hp
    obtain ⟨q, hq, rfl⟩ := hworker i w hw
    cases hp
    exact h p hq
  · intro i w hw hplan
    obtain ⟨q, -, rfl⟩ := hworker i w hw
    cases hplan
  · intro i w hw hwaiting
    obtain ⟨q, -, rfl⟩ := hworker i w hw
    cases hwaiting
  · intro key i
    rw [hnone]
    constructor
    · intro hmem
      exact absurd hmem List.not_mem_nil
    · intro hsome
      obtain ⟨w, hw, hstands⟩ := hsome
      obtain ⟨q, -, rfl⟩ := hworker i w hw
      exact absurd ((Worker.stands_iff_of_not_waiting rfl).mp hstands) List.not_mem_nil
  · intro key
    rw [hnone]
    exact List.nodup_nil

/-- One worker goes on, and moves in the lines as it should. -/
theorem Orderly.set (h : c.Orderly rank) (store : σ) {locks : LockTable Nat} {v : Worker α}
    (hw : c.workers[i]? = some w)
    (hexclusive : Exclusive { c with store, locks, workers := c.workers.set i v })
    (hplan : ∀ p, v.plan = some p → p.Tidy rank [] v.held) (hgone : v.plan = none → v.held = [])
    (hwants : v.waiting = true → ∃ key next, v.plan = some (.acquire key next))
    (hself : ∀ key, i ∈ (locks.line key).queue ↔ v.Stands key)
    (hothers : ∀ key j, j ≠ i → (j ∈ (locks.line key).queue ↔ j ∈ (c.locks.line key).queue))
    (honce : ∀ key : String, (locks.line key).queue.Nodup) :
    Orderly rank { c with store, locks, workers := c.workers.set i v } := by
  have hlength : i < c.workers.length := (List.getElem?_eq_some_iff.mp hw).1
  refine ⟨hexclusive, ?_, ?_, ?_, ?_, honce⟩
  · intro j u p hu hp
    rcases workers_set hu with ⟨rfl, rfl⟩ | ⟨-, hu⟩
    · exact hplan p hp
    · exact h.plans j u p hu hp
  · intro j u hu hu'
    rcases workers_set hu with ⟨rfl, rfl⟩ | ⟨-, hu⟩
    · exact hgone hu'
    · exact h.gone j u hu hu'
  · intro j u hu hu'
    rcases workers_set hu with ⟨rfl, rfl⟩ | ⟨-, hu⟩
    · exact hwants hu'
    · exact h.wants j u hu hu'
  · intro key j
    show j ∈ (locks.line key).queue ↔ ∃ u, (c.workers.set i v)[j]? = some u ∧ u.Stands key
    rw [List.getElem?_set]
    by_cases hj : i = j
    · subst hj
      rw [if_pos rfl, if_pos hlength, hself]
      simp
    · rw [if_neg hj, hothers key j fun heq => hj heq.symm]
      exact h.lines key j

/-- A worker stands where its line says. -/
theorem Orderly.mem_queue_iff (h : c.Orderly rank) (hw : c.workers[i]? = some w) (key : String) :
    i ∈ (c.locks.line key).queue ↔ w.Stands key := by
  rw [h.lines, hw]
  simp

theorem Orderly.not_waiting (h : c.Orderly rank) (hw : c.workers[i]? = some w)
    (hplan : ∀ key next, w.plan ≠ some (.acquire key next)) : w.waiting = false := by
  refine Bool.eq_false_iff.mpr fun hwaiting => ?_
  obtain ⟨key, next, hp⟩ := h.wants i w hw hwaiting
  exact hplan key next hp

/-- Once a worker has asked for a lock it stands in the line of its key and in those of the locks
that it holds, whether or not it has been told that the lock is its own. -/
theorem Orderly.asked (h : c.Orderly rank) {locks : LockTable Nat} {v : Worker α} {key : String}
    {next : Plan α} (hw : c.workers[i]? = some w) (hplan : w.plan = some (.acquire key next))
    (hv : v = ⟨some next, key :: w.held, false⟩ ∨ v = { w with waiting := true })
    (hexclusive : Exclusive { c with locks, workers := c.workers.set i v })
    (hself : ∀ k, i ∈ (locks.line k).queue ↔ k ∈ key :: w.held)
    (hothers : ∀ k j, j ≠ i → (j ∈ (locks.line k).queue ↔ j ∈ (c.locks.line k).queue))
    (honce : ∀ k : String, (locks.line k).queue.Nodup) :
    Orderly rank { c with locks, workers := c.workers.set i v } := by
  rcases hv with rfl | rfl
  · refine h.set _ hw hexclusive ?_ (fun hnone => nomatch hnone) (fun hwaits => nomatch hwaits)
      (fun k => ?_) hothers honce
    · rintro q ⟨⟩
      exact (h.plans i w _ hw hplan).2
    · exact (hself k).trans
        (Worker.stands_iff_of_not_waiting (w := ⟨some next, key :: w.held, false⟩) rfl).symm
  · refine h.set _ hw hexclusive (h.plans i w · hw) (h.gone i w hw) (fun _ => ⟨key, next, hplan⟩)
      (fun k => ?_) hothers honce
    exact (hself k).trans
      (Worker.stands_iff_of_acquire (w := { w with waiting := true }) hplan rfl).symm

theorem Orderly.step (h : c.Orderly rank) (answer : Plan.Answering σ) (i : Nat) :
    (c.step answer i).Orderly rank := by
  have hexclusive : (c.step answer i).Exclusive := by
    refine h.exclusive.step answer fun w key next hw hp => ?_
    exact (h.plans i w _ hw hp).fresh
  unfold Crew.step at hexclusive ⊢
  rcases hw : c.workers[i]? with _ | w
  · exact h
  rw [hw] at hexclusive
  dsimp only at hexclusive ⊢
  rcases hplan : w.plan with _ | p
  · exact h
  rw [hplan] at hexclusive
  have hp := h.plans i w p hw hplan
  cases p with
  | done result => exact h
  | call r next =>
      have hwaiting := h.not_waiting hw fun key next => by simp [hplan]
      refine h.set _ hw hexclusive ?_ (fun hnone => nomatch hnone)
        (fun hwaits => absurd hwaits (Bool.eq_false_iff.mp hwaiting)) ?_ (fun _ _ _ => Iff.rfl)
        h.once
      · rintro q ⟨⟩
        rcases (answer c.store r).1 with e | a
        · exact (hp.2 e).tidy
        · exact hp.1 a
      · intro key
        rw [h.mem_queue_iff hw, Worker.stands_iff_of_not_waiting hwaiting,
          Worker.stands_iff_of_not_waiting
            (w := { w with plan := some (next (answer c.store r).1) }) hwaiting]
  | acquire key next =>
      refine h.asked hw hplan (by split_ifs <;> simp [hplan]) hexclusive (fun k => ?_)
        (fun k j hj => ?_) fun k => ?_
      all_goals by_cases hwaiting : w.waiting = true
      · rw [if_pos hwaiting, LockTable.queue_poll, h.mem_queue_iff hw,
          Worker.stands_iff_of_acquire hplan hwaiting]
      · rw [if_neg hwaiting, LockTable.queue_lock]
        have hstands := (h.mem_queue_iff hw k).trans
          (Worker.stands_iff_of_not_waiting (Bool.eq_false_iff.mpr hwaiting))
        split_ifs with hkey
        · simp [hkey]
        · have hne : k ≠ key := fun heq => hkey heq.symm
          simp [hne, hstands]
      · rw [if_pos hwaiting, LockTable.queue_poll]
      · rw [if_neg hwaiting, LockTable.queue_lock]
        split_ifs
        · simp [hj]
        · rfl
      · rw [if_pos hwaiting, LockTable.queue_poll]
        exact h.once k
      · rw [if_neg hwaiting, LockTable.queue_lock]
        have hstands := (h.mem_queue_iff hw k).trans
          (Worker.stands_iff_of_not_waiting (Bool.eq_false_iff.mpr hwaiting))
        split_ifs with hkey
        · -- whoever asks for a lock for the first time does not stand in its line yet
          have hnew : i ∉ (c.locks.line k).queue := fun hmem =>
            hp.fresh (hkey ▸ hstands.mp hmem)
          exact List.nodup_append.mpr ⟨h.once k, List.nodup_singleton i, fun j hj _ hi heq =>
            hnew (List.mem_singleton.mp hi ▸ heq ▸ hj)⟩
        · exact h.once k
  | release key next =>
      have hwaiting := h.not_waiting hw fun key next => by simp [hplan]
      have hnodup := h.exclusive.once i w hw
      refine h.set _ hw hexclusive ?_ (fun hnone => nomatch hnone)
        (fun hwaits => absurd hwaits (Bool.eq_false_iff.mp hwaiting)) (fun k => ?_)
        (fun k j hj => ?_) fun k => ?_
      · rintro q ⟨⟩
        exact hp.2
      · have hstands := (h.mem_queue_iff hw k).trans (Worker.stands_iff_of_not_waiting hwaiting)
        rw [LockTable.queue_leave, Worker.stands_iff_of_not_waiting
          (w := { w with plan := some next, held := w.held.erase key }) hwaiting,
          hnodup.mem_erase_iff]
        split_ifs with hkey
        · rw [(h.once k).mem_erase_iff]
          simp [hkey]
        · have hne : k ≠ key := fun heq => hkey heq.symm
          simp [hne, hstands]
      · rw [LockTable.queue_leave]
        split_ifs
        · rw [(h.once k).mem_erase_iff]
          simp [hj]
        · rfl
      · rw [LockTable.queue_leave]
        split_ifs
        · exact (h.once k).erase i
        · exact h.once k

/-- Whoever is sent away leaves the lines in which it stands. -/
theorem dismiss_eq (hw : c.workers[i]? = some w) : c.dismiss i
    = { c with
        locks := (w.awaited ++ w.held).foldl (fun locks key => locks.leave key i) c.locks
        workers := c.workers.set i { plan := none } } := by
  unfold Crew.dismiss
  rw [hw]
  rfl

theorem Orderly.dismiss (h : c.Orderly rank) (i : Nat) : (c.dismiss i).Orderly rank := by
  have hexclusive := h.exclusive.dismiss i
  rcases hw : c.workers[i]? with _ | w
  · unfold Crew.dismiss
    rw [hw]
    exact h
  rw [dismiss_eq hw] at hexclusive ⊢
  refine h.set _ hw hexclusive (fun p hp => nomatch hp) (fun _ => rfl)
    (fun hwaits => nomatch hwaits) (fun k => ?_) (fun k j hj => ?_)
    (LockTable.mem_queue_foldl_leave (j := i) h.once).2
  · rw [(LockTable.mem_queue_foldl_leave h.once).1, h.mem_queue_iff hw,
      Worker.stands_iff_of_not_waiting (w := { plan := none }) rfl]
    constructor
    · intro hstays
      exact absurd rfl (hstays.2 (Worker.mem_of_stands hstays.1))
    · intro hheld
      exact absurd hheld List.not_mem_nil
  · rw [(LockTable.mem_queue_foldl_leave h.once).1]
    simp [hj]

/-- **A crew of tidy workers stays orderly**, in whatever order they take their steps, and
wherever they are cut short. -/
theorem Orderly.events (h : c.Orderly rank) (answer : Plan.Answering σ) (events : List Event) :
    (events.foldl (Crew.advance answer) c).Orderly rank := by
  induction events generalizing c with
  | nil => exact h
  | cons event events ih =>
      refine ih ?_
      cases event with
      | step i => exact h.step answer i
      | fail i e => exact h.step (failing e) i
      | dismiss i => exact h.dismiss i

/-! ### Who can go on -/

/-- The worker at a place wants a lock that another owns. -/
def Blocked (c : Crew σ α) (i : Nat) : Prop :=
  ∃ w key next j, c.workers[i]? = some w ∧ w.plan = some (.acquire key next) ∧
    c.locks.owner key = some j ∧ j ≠ i

end Crew

/-- What is left of a plan after one step. -/
inductive Plan.Leaves {α : Type} : Plan α → Plan α → Prop
  | call {r : Request} {next : Except StoreError r.Reply → Plan α}
      (reply : Except StoreError r.Reply) : Leaves (.call r next) (next reply)
  | acquire {key : String} {next : Plan α} : Leaves (.acquire key next) next
  | release {key : String} {next : Plan α} : Leaves (.release key next) next

namespace Crew

variable {α σ : Type} {rank : String → Nat} {c : Crew σ α} {i : Nat} {w : Worker α}

/-- Whoever is done takes no more steps. -/
theorem step_of_isFinished (answer : Plan.Answering σ) (hw : c.workers[i]? = some w)
    (hdone : w.isFinished = true) : c.step answer i = c := by
  unfold Crew.step
  rw [hw]
  dsimp only
  rcases hplan : w.plan with _ | p
  · rfl
  cases p with
  | done result => rfl
  | _ => simp [Worker.isFinished, Worker.result?, hplan] at hdone

theorem step_call (answer : Plan.Answering σ) {r : Request}
    {next : Except StoreError r.Reply → Plan α} (hw : c.workers[i]? = some w)
    (hplan : w.plan = some (.call r next)) : c.step answer i
      = { c with
          store := (answer c.store r).2
          workers := c.workers.set i { w with plan := some (next (answer c.store r).1) } } := by
  unfold Crew.step
  rw [hw]
  dsimp only
  rw [hplan]

theorem step_release (answer : Plan.Answering σ) {key : String} {next : Plan α}
    (hw : c.workers[i]? = some w) (hplan : w.plan = some (.release key next)) : c.step answer i
      = { c with
          locks := c.locks.leave key i
          workers := c.workers.set i { w with plan := some next, held := w.held.erase key } } := by
  unfold Crew.step
  rw [hw]
  dsimp only
  rw [hplan]

/-- A worker that wants a lock and is not blocked has it when it asks. -/
theorem Orderly.step_acquire (h : c.Orderly rank) (answer : Plan.Answering σ) {key : String}
    {next : Plan α} (hw : c.workers[i]? = some w) (hplan : w.plan = some (.acquire key next))
    (hfree : ¬ c.Blocked i) :
    (c.step answer i).workers[i]? = some ⟨some next, key :: w.held, false⟩ := by
  have hlength : i < c.workers.length := (List.getElem?_eq_some_iff.mp hw).1
  have howner : ∀ j, c.locks.owner key = some j → j = i := by
    intro j hj
    by_contra hne
    exact hfree ⟨w, key, next, j, hw, hplan, hj, hne⟩
  unfold Crew.step
  rw [hw]
  dsimp only
  rw [hplan]
  dsimp only
  by_cases hwaiting : w.waiting = true
  · -- a worker that waits stands in the line, whose head can only be itself
    have hmem := (h.mem_queue_iff hw key).mpr (.inr ⟨hwaiting, next, hplan⟩)
    obtain ⟨j, rest, hqueue⟩ := List.exists_cons_of_ne_nil (List.ne_nil_of_mem hmem)
    have hj : c.locks.owner key = some i := by
      have hhead : c.locks.owner key = some j := by rw [LockTable.owner, hqueue]; rfl
      rw [hhead, howner j hhead]
    rw [if_pos hwaiting, if_pos (LockTable.poll_of_owner hj)]
    simp [hlength]
  · have hnot : i ∉ (c.locks.line key).queue := by
      rw [h.mem_queue_iff hw, Worker.stands_iff_of_not_waiting (Bool.eq_false_iff.mpr hwaiting)]
      exact (h.plans i w _ hw hplan).fresh
    have hqueue : (c.locks.line key).queue = [] := by
      rcases hqueue : (c.locks.line key).queue with _ | ⟨j, rest⟩
      · rfl
      · have hj := howner j (by rw [LockTable.owner, hqueue]; rfl)
        rw [hqueue, hj] at hnot
        exact absurd List.mem_cons_self hnot
    rw [if_neg hwaiting]
    dsimp only
    rw [LockTable.lock_of_free hqueue, if_pos rfl]
    simp [hlength]

/-- **A worker that is neither done nor blocked goes on** when it takes a step. -/
theorem Orderly.goes_on (h : c.Orderly rank) (answer : Plan.Answering σ)
    (hw : c.workers[i]? = some w) (hleft : w.isFinished = false) (hfree : ¬ c.Blocked i) :
    ∃ v p q, (c.step answer i).workers[i]? = some v ∧ w.plan = some p ∧ v.plan = some q ∧
      p.Leaves q := by
  have hlength : i < c.workers.length := (List.getElem?_eq_some_iff.mp hw).1
  rcases hplan : w.plan with _ | p
  · simp [Worker.isFinished, hplan] at hleft
  cases p with
  | done result => simp [Worker.isFinished, Worker.result?, hplan] at hleft
  | call r next =>
      refine ⟨{ w with plan := some (next (answer c.store r).1) }, _, _, ?_, rfl, rfl, .call _⟩
      rw [step_call answer hw hplan]
      exact List.getElem?_set_self hlength
  | acquire key next =>
      exact ⟨_, _, _, h.step_acquire answer hw hplan hfree, rfl, rfl, .acquire⟩
  | release key next =>
      refine ⟨{ w with plan := some next, held := w.held.erase key }, _, _, ?_, rfl, rfl, .release⟩
      rw [step_release answer hw hplan]
      exact List.getElem?_set_self hlength

/-- Whoever is done stands in no line. -/
theorem Orderly.not_stands (h : c.Orderly rank) (hw : c.workers[i]? = some w)
    (hdone : w.isFinished = true) (key : String) : ¬ w.Stands key := by
  have hheld : w.held = [] ∧ ∀ key next, w.plan ≠ some (.acquire key next) := by
    rcases hplan : w.plan with _ | p
    · exact ⟨h.gone i w hw hplan, fun _ _ => nofun⟩
    cases p with
    | done result => exact ⟨h.plans i w _ hw hplan, fun _ _ => nofun⟩
    | _ => simp [Worker.isFinished, Worker.result?, hplan] at hdone
  rw [Worker.stands_iff_of_not_waiting (h.not_waiting hw hheld.2), hheld.1]
  exact List.not_mem_nil

/-- **Where all are done no lock is held.** -/
theorem Orderly.owner_eq_none (h : c.Orderly rank) (hdone : c.isFinished = true) (key : String) :
    c.locks.owner key = none := by
  rcases howner : c.locks.owner key with _ | i
  · rfl
  obtain ⟨w, hw, hstands⟩ := (h.lines key i).mp (List.mem_of_mem_head? howner)
  exact absurd hstands
    (h.not_stands hw (List.all_eq_true.mp hdone w (List.mem_of_getElem? hw)) key)

/-- The rank of the lock that the worker at a place wants next. -/
def wantedRank (rank : String → Nat) (c : Crew σ α) (i : Nat) : Nat :=
  match c.workers[i]?.bind Worker.plan with
  | some (.acquire key _) => rank key
  | _ => 0

theorem wantedRank_eq {key : String} {next : Plan α} (hw : c.workers[i]? = some w)
    (hplan : w.plan = some (.acquire key next)) : c.wantedRank rank i = rank key := by
  simp [wantedRank, hw, hplan]

/-- Whoever keeps a worker waiting and is blocked itself wants a lock of a higher rank. -/
theorem Orderly.wantedRank_lt (h : c.Orderly rank) {key : String} {next : Plan α} {j : Nat}
    (hw : c.workers[i]? = some w) (hplan : w.plan = some (.acquire key next))
    (howner : c.locks.owner key = some j) (hblocked : c.Blocked j) :
    c.wantedRank rank i < c.wantedRank rank j := by
  obtain ⟨v, key', next', k, hv, hplan', howner', hne⟩ := hblocked
  obtain ⟨_, hv', hstands⟩ := (h.lines key j).mp (List.mem_of_mem_head? howner)
  cases hv.symm.trans hv'
  rw [wantedRank_eq hw hplan, wantedRank_eq hv hplan']
  rcases hstands with hheld | ⟨-, next'', hplan''⟩
  · exact (h.plans j v _ hv hplan').1 key hheld
  · -- the head of the line in which it waits is itself, and does not block it
    cases hplan'.symm.trans hplan''
    exact absurd (Option.some.inj (howner'.symm.trans howner)) hne

/-- **Some worker that is not done is not blocked.** -/
theorem Orderly.exists_not_blocked (h : c.Orderly rank) (hleft : c.isFinished ≠ true) :
    ∃ i w, c.workers[i]? = some w ∧ w.isFinished = false ∧ ¬ c.Blocked i := by
  let left : Finset Nat := (Finset.range c.workers.length).filter fun i =>
    ∃ w, c.workers[i]? = some w ∧ w.isFinished = false
  have mem_left : ∀ i, i ∈ left ↔ ∃ w, c.workers[i]? = some w ∧ w.isFinished = false := by
    intro i
    rw [Finset.mem_filter, Finset.mem_range, and_iff_right_iff_imp]
    rintro ⟨w, hw, -⟩
    exact (List.getElem?_eq_some_iff.mp hw).1
  have hsome : left.Nonempty := by
    obtain ⟨w, hw, hunfinished⟩ : ∃ w ∈ c.workers, w.isFinished ≠ true := by
      by_contra hall
      push Not at hall
      exact hleft (List.all_eq_true.mpr hall)
    obtain ⟨i, hi⟩ := List.mem_iff_getElem?.mp hw
    exact ⟨i, (mem_left i).mpr ⟨w, hi, Bool.eq_false_iff.mpr hunfinished⟩⟩
  obtain ⟨i, hi, hhighest⟩ := left.exists_max_image (c.wantedRank rank) hsome
  obtain ⟨w, hw, hunfinished⟩ := (mem_left i).mp hi
  by_cases hblocked : c.Blocked i
  · -- nobody who is left wants a lock of a higher rank, so the owner of the lock is not blocked
    obtain ⟨w', key, next, j, hw', hplan, howner, -⟩ := hblocked
    obtain ⟨v, hv, hstands⟩ := (h.lines key j).mp (List.mem_of_mem_head? howner)
    have hv' : v.isFinished = false :=
      Bool.eq_false_iff.mpr fun hdone => h.not_stands hv hdone key hstands
    refine ⟨j, v, hv, hv', fun hj => ?_⟩
    have hhigher := h.wantedRank_lt hw' hplan howner hj
    exact absurd (hhighest j ((mem_left j).mpr ⟨v, hv, hv'⟩)) (Nat.not_le_of_lt hhigher)
  · exact ⟨i, w, hw, hunfinished, hblocked⟩

end Crew

end IdentityStore
