/-
What comes after a call that fails.

A call of a tidy worker that fails is its last one.  What is left of its plan gives back the
locks that it holds and ends with the error of the store, so that after as many moves as it
holds locks it is done.  Meanwhile the others may do what they want: a worker's plan changes
only when it moves itself or is sent away.
-/
import IdentityStore.Proofs.Plan.Conduct
import IdentityStore.Proofs.Plan.Progress

namespace IdentityStore.Crew

variable {α σ : Type} {rank : String → Nat} {answer : Plan.Answering σ} {c : Crew σ α}
  {i j : Nat} {w : Worker α} {e : StorageError} {event : Event}

/-! ### Whose event it is -/

/-- The worker at a place takes a step, whether or not a call fails. -/
def Event.moves (i : Nat) : Event → Bool
  | .step j | .fail j _ => j = i
  | .dismiss _ => false

theorem getElem?_step_ne (answer : Plan.Answering σ) (h : j ≠ i) :
    (c.step answer j).workers[i]? = c.workers[i]? := by
  unfold Crew.step
  rcases c.workers[j]? with _ | w
  · rfl
  dsimp only
  rcases w.plan with _ | p
  · rfl
  cases p with
  | done result => rfl
  | _ => exact List.getElem?_set_ne h

theorem getElem?_dismiss_ne (h : j ≠ i) : (c.dismiss j).workers[i]? = c.workers[i]? := by
  unfold Crew.dismiss
  rcases c.workers[j]? with _ | w
  · rfl
  · exact List.getElem?_set_ne h

/-- A worker that neither moves nor is sent away stays as it is. -/
theorem getElem?_advance (answer : Plan.Answering σ) (hmoves : event.moves i = false)
    (hdismiss : event ≠ .dismiss i) : (c.advance answer event).workers[i]? = c.workers[i]? := by
  cases event with
  | step j => exact getElem?_step_ne _ (of_decide_eq_false hmoves)
  | fail j e => exact getElem?_step_ne _ (of_decide_eq_false hmoves)
  | dismiss j => exact getElem?_dismiss_ne fun hj => hdismiss (hj ▸ rfl)

/-- A worker moves against the store, or against one that fails. -/
theorem exists_step_of_moves (answer : Plan.Answering σ) (hmoves : event.moves i = true) :
    ∃ answer', ∀ c : Crew σ α, c.advance answer event = c.step answer' i := by
  cases event with
  | step j => exact ⟨answer, fun c => of_decide_eq_true hmoves ▸ rfl⟩
  | fail j e => exact ⟨failing e, fun c => of_decide_eq_true hmoves ▸ rfl⟩
  | dismiss j => cases hmoves

/-- Who exchanges something with the store is about to make a call, and moves. -/
theorem exchange?_eq_some {x : Exchange σ} (h : c.exchange? answer j = some (i, x)) :
    j = i ∧ ∃ w r next, c.workers[i]? = some w ∧ w.plan = some (.call r next) ∧
      x = .of answer c.store r := by
  unfold exchange? at h
  split at h
  · cases h
  · rename_i w hw
    split at h
    · rename_i r next hplan
      cases h
      exact ⟨rfl, w, r, next, hw, hplan, rfl⟩
    · cases h

/-- Who exchanges something with the store is about to make a call, makes it, and is left with
what comes after the reply. -/
theorem exchangeAt?_eq_some {x : Exchange σ} (h : c.exchangeAt? answer event = some (i, x)) :
    ∃ w next, c.workers[i]? = some w ∧ w.plan = some (.call x.request next) ∧
      x.before = c.store ∧ c.advance answer event
        = { c with
            store := x.after
            workers := c.workers.set i { w with plan := some (next x.reply) } } := by
  cases event with
  | step j =>
      obtain ⟨rfl, w, r, next, hw, hplan, rfl⟩ := exchange?_eq_some h
      exact ⟨w, next, hw, hplan, rfl, step_call answer hw hplan⟩
  | fail j e =>
      obtain ⟨rfl, w, r, next, hw, hplan, rfl⟩ := exchange?_eq_some h
      exact ⟨w, next, hw, hplan, rfl, step_call (failing e) hw hplan⟩
  | dismiss j => cases h

/-! ### Workers that quit -/

/-- All that is left to the worker at a place is to give locks back and to end with an error,
unless it has been sent away. -/
def Quitting (e : StorageError) (c : Crew σ α) (i : Nat) : Prop :=
  ∃ w, c.workers[i]? = some w ∧ ∀ p, w.plan = some p → p.Quits e [] w.held

theorem quitting_of_quits {p : Plan α} (hw : c.workers[i]? = some w) (hplan : w.plan = some p)
    (h : p.Quits e [] w.held) : c.Quitting e i := by
  refine ⟨w, hw, fun q hq => ?_⟩
  cases hplan.symm.trans hq
  exact h

/-- Whoever quits gives one lock back with every move, until none is left. -/
theorem step_of_quits (answer : Plan.Answering σ) {p : Plan α} (hw : c.workers[i]? = some w)
    (hplan : w.plan = some p) (h : p.Quits e [] w.held) :
    ∃ v q, (c.step answer i).workers[i]? = some v ∧ v.plan = some q ∧ q.Quits e [] v.held ∧
      v.held.length = w.held.length - 1 := by
  cases p with
  | done result =>
      have hdone : w.isFinished = true := by simp [Worker.isFinished, Worker.result?, hplan]
      rw [step_of_isFinished answer hw hdone]
      exact ⟨w, _, hw, hplan, h, by simp [h.1]⟩
  | call r next => exact h.elim
  | acquire key next => exact h.elim
  | release key next =>
      refine ⟨{ w with plan := some next, held := w.held.erase key }, next, ?_, rfl, h.2,
        List.length_erase_of_mem h.1⟩
      rw [step_release answer hw hplan]
      exact List.getElem?_set_self (List.getElem?_eq_some_iff.mp hw).1

theorem Quitting.step (h : c.Quitting e i) (answer : Plan.Answering σ) :
    (c.step answer i).Quitting e i := by
  obtain ⟨w, hw, hplan⟩ := h
  rcases hp : w.plan with _ | p
  · have hdone : w.isFinished = true := by simp [Worker.isFinished, hp]
    rw [step_of_isFinished answer hw hdone]
    exact ⟨w, hw, hplan⟩
  · obtain ⟨v, q, hv, hq, hquits, -⟩ := step_of_quits answer hw hp (hplan p hp)
    exact quitting_of_quits hv hq hquits

theorem Quitting.advance (h : c.Quitting e i) (answer : Plan.Answering σ) (event : Event) :
    (c.advance answer event).Quitting e i := by
  by_cases hmoves : event.moves i = true
  · obtain ⟨answer', hstep⟩ := exists_step_of_moves (α := α) answer hmoves
    rw [hstep]
    exact h.step answer'
  by_cases hdismiss : event = .dismiss i
  · subst hdismiss
    obtain ⟨w, hw, -⟩ := h
    refine ⟨{ plan := none }, ?_, fun p hp => nomatch hp⟩
    show (c.dismiss i).workers[i]? = _
    rw [dismiss_eq hw]
    exact List.getElem?_set_self (List.getElem?_eq_some_iff.mp hw).1
  · rw [Quitting, getElem?_advance answer (Bool.eq_false_iff.mpr hmoves) hdismiss]
    exact h

/-- Whoever quits exchanges nothing with the store any more. -/
theorem Quitting.own_log (h : c.Quitting e i) (answer : Plan.Answering σ) (events : List Event) :
    Log.own i (c.log answer events) = [] := by
  induction events generalizing c with
  | nil => rfl
  | cons event events ih =>
      show Log.own i ((c.exchangeAt? answer event).toList ++ _) = []
      rw [Log.own_append, ih (h.advance answer event), List.append_nil]
      rcases hx : c.exchangeAt? answer event with _ | ⟨j, x⟩
      · rfl
      refine Log.own_singleton_ne (fun hj => ?_) x
      subst hj
      obtain ⟨w, next, hw, hplan, -⟩ := exchangeAt?_eq_some hx
      obtain ⟨w', hw', hquits⟩ := h
      cases hw.symm.trans hw'
      exact hquits _ hplan

/-- **Whoever quits is done after as many moves as it holds locks**, unless it is sent away. -/
theorem done_of_quits (answer : Plan.Answering σ) {p : Plan α} (hw : c.workers[i]? = some w)
    (hplan : w.plan = some p) (h : p.Quits e [] w.held) {events : List Event}
    (hstays : .dismiss i ∉ events) (hmoves : w.held.length ≤ events.countP (Event.moves i)) :
    ∃ v, (events.foldl (advance answer) c).workers[i]? = some v ∧
      v.result? = some (.error e) ∧ v.held = [] := by
  induction events generalizing c w p with
  | nil =>
      have hheld : w.held = [] := List.length_eq_zero_iff.mp (Nat.le_zero.mp hmoves)
      rw [hheld] at h
      exact ⟨w, hw, by rw [Worker.result?, hplan, h.eq_done], hheld⟩
  | cons event events ih =>
      obtain ⟨hself, hrest⟩ := not_or.mp (mt List.mem_cons.mpr hstays)
      by_cases hmove : event.moves i = true
      · rw [List.countP_cons_of_pos hmove] at hmoves
        obtain ⟨answer', hstep⟩ := exists_step_of_moves (α := α) answer hmove
        obtain ⟨v, q, hv, hq, hquits, hlength⟩ := step_of_quits answer' hw hplan h
        rw [← hstep] at hv
        exact ih hv hq hquits hrest (by omega)
      · rw [List.countP_cons_of_neg hmove] at hmoves
        have hsame : (c.advance answer event).workers[i]? = c.workers[i]? :=
          getElem?_advance answer (Bool.eq_false_iff.mpr hmove) fun heq => hself heq.symm
        exact ih (hsame.trans hw) hplan h hrest hmoves

/-- **A tidy worker of which a call fails quits** with the error of the store. -/
theorem Orderly.quits_of_failed (h : c.Orderly rank) {x : Exchange σ} {cause : StoreError}
    (hcall : c.exchangeAt? answer event = some (i, x)) (hfails : x.reply = .error cause) :
    ∃ w p, (c.advance answer event).workers[i]? = some w ∧ w.plan = some p ∧
      p.Quits (.ofStore cause) [] w.held := by
  obtain ⟨w, next, hw, hplan, -, hafter⟩ := exchangeAt?_eq_some hcall
  refine ⟨{ w with plan := some (next x.reply) }, next x.reply, ?_, rfl, ?_⟩
  · rw [hafter]
    exact List.getElem?_set_self (List.getElem?_eq_some_iff.mp hw).1
  · rw [hfails]
    exact (h.plans i w _ hw hplan).2 cause

end IdentityStore.Crew
