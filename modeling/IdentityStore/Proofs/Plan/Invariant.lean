/-
Invariants of stores that plans share.

A plan keeps an invariant if each of its requests does, whatever was done to the store
since the last one.  All that the plan may rely on is that every answer came from a
store that had the invariant, or was an error.  `Keeps` says so by recursion on the
plan, and it is put together like the plan itself, from one fact for each request.

A store may answer in more than one way, as where it lists keys in an order that nobody
knows.  So the answers are a family, and each request may be answered by any member of it.

Since nothing is assumed of the store between two requests, workers whose plans keep an
invariant keep it together, in any order of their steps, and also where calls fail or
workers are sent away: `Crew.invariant_of_events`.
-/
import IdentityStore.Plan.Crew
import Mathlib.Tactic.Common

namespace IdentityStore

namespace Plan

variable {α β σ ι : Type} {answers : ι → Answering σ} {I : σ → Prop}

/-! ### Plans -/

/-- The plan keeps the invariant at every request, however it is answered, and what it ends
with has the property `Q`. -/
def Keeps (answers : ι → Answering σ) (I : σ → Prop) (Q : α → Prop) : Plan α → Prop
  | .done result => ∀ a, result = .ok a → Q a
  | .call r next =>
    (∀ i s, I s → I (answers i s r).2 ∧ Keeps answers I Q (next (answers i s r).1)) ∧
      ∀ e, Keeps answers I Q (next (.error e))
  | .acquire _ next => Keeps answers I Q next
  | .release _ next => Keeps answers I Q next

theorem keeps_pure {Q : α → Prop} {a : α} (h : Q a) : (pure a : Plan α).Keeps answers I Q := by
  intro b hb
  cases hb
  exact h

theorem keeps_fail {Q : α → Prop} (e : StorageError) : (fail e : Plan α).Keeps answers I Q := by
  intro a ha
  cases ha

theorem keeps_ofExcept {Q : α → Prop} {r : Except StorageError α} (h : ∀ a, r = .ok a → Q a) :
    (ofExcept r).Keeps answers I Q := h

theorem Keeps.mono {Q R : α → Prop} {p : Plan α} (h : p.Keeps answers I Q) (hQR : ∀ a, Q a → R a) :
    p.Keeps answers I R := by
  induction p with
  | done result => exact fun a ha => hQR a (h a ha)
  | call r next ih =>
      exact ⟨fun i s hs => ⟨(h.1 i s hs).1, ih _ (h.1 i s hs).2⟩, fun e => ih _ (h.2 e)⟩
  | acquire key next ih => exact ih h
  | release key next ih => exact ih h

/-- A plan that goes on with the result of another. -/
theorem keeps_bind {Q : α → Prop} {R : β → Prop} {p : Plan α} {f : α → Plan β}
    (hp : p.Keeps answers I Q) (hf : ∀ a, Q a → (f a).Keeps answers I R) :
    (p >>= f).Keeps answers I R := by
  show (p.bind f).Keeps answers I R
  induction p with
  | done result =>
      cases result with
      | ok a => exact hf a (hp a rfl)
      | error e => exact fun b hb => nomatch hb
  | call r next ih =>
      exact ⟨fun i s hs => ⟨(hp.1 i s hs).1, ih _ (hp.1 i s hs).2⟩, fun e => ih _ (hp.2 e)⟩
  | acquire key next ih => exact ih hp
  | release key next ih => exact ih hp

/-- A single request. -/
theorem keeps_ask {r : Request} {Q : r.Reply → Prop}
    (h : ∀ i s, I s → I (answers i s r).2 ∧ ∀ a, (answers i s r).1 = .ok a → Q a) :
    (ask r).Keeps answers I Q := by
  refine ⟨fun i s hs => ⟨(h i s hs).1, fun a ha => ?_⟩, fun e a ha => nomatch ha⟩
  rcases hreply : (answers i s r).1 with e | b
  · rw [hreply] at ha
    cases ha
  · rw [hreply] at ha
    cases ha
    exact (h i s hs).2 _ hreply

theorem keeps_thenRelease {Q : α → Prop} {key : String} {p : Plan α} (h : p.Keeps answers I Q) :
    (p.thenRelease key).Keeps answers I Q := by
  induction p with
  | done result => exact h
  | call r next ih =>
      exact ⟨fun i s hs => ⟨(h.1 i s hs).1, ih _ (h.1 i s hs).2⟩, fun e => ih _ (h.2 e)⟩
  | acquire k next ih => exact ih h
  | release k next ih => exact ih h

theorem keeps_locked {Q : α → Prop} {key : String} {p : Plan α} (h : p.Keeps answers I Q) :
    (p.locked key).Keeps answers I Q := keeps_thenRelease h

/-- What a plan that runs alone ends with. -/
theorem Keeps.run {Q : α → Prop} {p : Plan α} (h : p.Keeps answers I Q) {i : ι} {s s' : σ}
    (hs : I s) {a : α} (hrun : p.run (answers i) s = (.ok a, s')) : Q a := by
  induction p generalizing s with
  | done result => exact h a (congrArg Prod.fst hrun)
  | call r next ih => exact ih _ (h.1 i s hs).2 (h.1 i s hs).1 hrun
  | acquire key next ih => exact ih h hs hrun
  | release key next ih => exact ih h hs hrun

end Plan

/-! ### Crews -/

namespace Crew

variable {α σ ι : Type} {answers : ι → Plan.Answering σ} {I : σ → Prop}

/-- What may happen next to a crew. -/
inductive Event where
  /-- The worker at a place takes a step. -/
  | step (worker : Nat)
  /-- The worker at a place takes a step, but a call of the store fails without being
  run. -/
  | fail (worker : Nat) (error : StoreError)
  /-- The worker at a place is sent away. -/
  | dismiss (worker : Nat)

/-- A store that answers every request with an error. -/
def failing (error : StoreError) : Plan.Answering σ := fun s _ => (.error error, s)

/-- The crew after an event. -/
def advance (answer : Plan.Answering σ) (c : Crew σ α) : Event → Crew σ α
  | .step i => c.step answer i
  | .fail i e => c.step (failing e) i
  | .dismiss i => c.dismiss i

/-- The store has the invariant, and the plan of every worker keeps it. -/
structure Keeps (answers : ι → Plan.Answering σ) (I : σ → Prop) (c : Crew σ α) : Prop where
  store : I c.store
  plans : ∀ w ∈ c.workers, ∀ p, w.plan = some p → p.Keeps answers I fun _ => True

theorem keeps_start {store : σ} {plans : List (Plan α)} (hstore : I store)
    (hplans : ∀ p ∈ plans, p.Keeps answers I fun _ => True) :
    (start store plans).Keeps answers I := by
  refine ⟨hstore, fun w hw p hp => ?_⟩
  obtain ⟨q, hq, rfl⟩ := List.mem_map.mp hw
  cases hp
  exact hplans p hq

/-- One worker that goes on with a plan that keeps the invariant. -/
theorem Keeps.set {c : Crew σ α} (h : c.Keeps answers I) (store : σ) {locks : LockTable Nat}
    {i : Nat} {w : Worker α} (hstore : I store)
    (hw : ∀ p, w.plan = some p → p.Keeps answers I fun _ => True) :
    Keeps answers I { c with store, locks, workers := c.workers.set i w } := by
  refine ⟨hstore, fun v hv => ?_⟩
  rcases List.mem_or_eq_of_mem_set hv with hv | rfl
  · exact h.plans v hv
  · exact hw

/-- A step against a store that answers in one of its ways, or with an error. -/
theorem Keeps.step {c : Crew σ α} (h : c.Keeps answers I) {answer : Plan.Answering σ}
    (hanswer : ∀ s r, (∃ i, answer s r = answers i s r) ∨ ∃ e, answer s r = (.error e, s))
    (i : Nat) : (c.step answer i).Keeps answers I := by
  unfold Crew.step
  rcases hworker : c.workers[i]? with _ | w
  · exact h
  have hmem := List.mem_of_getElem? hworker
  dsimp only
  rcases hplan : w.plan with _ | p
  · exact h
  have hp := h.plans w hmem p hplan
  cases p with
  | done result => exact h
  | call r next =>
      refine h.set (answer c.store r).2 ?_ fun q hq => ?_
      · rcases hanswer c.store r with ⟨way, heq⟩ | ⟨e, heq⟩
        · rw [heq]
          exact (hp.1 way c.store h.store).1
        · rw [heq]
          exact h.store
      · cases hq
        rcases hanswer c.store r with ⟨way, heq⟩ | ⟨e, heq⟩
        · rw [heq]
          exact (hp.1 way c.store h.store).2
        · rw [heq]
          exact hp.2 e
  | acquire key next =>
      refine h.set c.store h.store ?_
      intro q hq
      -- with or without the lock, what is left to do keeps what the whole did
      split_ifs at hq
      all_goals
        cases hq
        exact hp
  | release key next =>
      refine h.set c.store h.store ?_
      intro q hq
      cases hq
      exact hp

theorem Keeps.dismiss {c : Crew σ α} (h : c.Keeps answers I) (i : Nat) :
    (c.dismiss i).Keeps answers I := by
  unfold Crew.dismiss
  rcases c.workers[i]? with _ | w
  · exact h
  · exact h.set c.store h.store fun p hp => nomatch hp

theorem Keeps.advance {c : Crew σ α} (h : c.Keeps answers I) (way : ι) (event : Event) :
    (c.advance (answers way) event).Keeps answers I := by
  cases event with
  | step i => exact h.step (fun s r => .inl ⟨way, rfl⟩) i
  | fail i e => exact h.step (fun s r => .inr ⟨e, rfl⟩) i
  | dismiss i => exact h.dismiss i

/-- **An invariant that all plans keep holds at every point**, in whatever order the
workers take their steps, in whatever way the store answers each of them, and wherever they
are cut short. -/
theorem invariant_of_events {c : Crew σ α} (h : c.Keeps answers I) (events : List (ι × Event)) :
    I (events.foldl (fun c event => c.advance (answers event.1) event.2) c).store := by
  induction events generalizing c with
  | nil => exact h.store
  | cons event events ih => exact ih (h.advance event.1 event.2)

end Crew

end IdentityStore
