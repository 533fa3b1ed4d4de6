/-
What a plan has exchanged with a store by the time it ends.

Whoever comes to an end beside others has taken one branch of its plan, and the replies that
it was given say which.  `Concludes` reads the branch off: it divides like the plan, so that
an end of the whole is traced back to the exchanges of each part.  Nothing is said of the
stores in between, which are other workers' as well; that is for the log of the crew to say.
-/
import IdentityStore.Proofs.Plan.Conduct

namespace IdentityStore

namespace Plan

variable {α β σ : Type} {past : List (Exchange σ)}

/-- With these exchanges, and no more, the plan comes to this end. -/
def Concludes : Plan α → List (Exchange σ) → Except StorageError α → Prop
  | .done result, past, x => past = [] ∧ x = result
  | .call r next, past, x => ∃ reply before after rest,
      past = ⟨r, reply, before, after⟩ :: rest ∧ Concludes (next reply) rest x
  | .acquire _ next, past, x => Concludes next past x
  | .release _ next, past, x => Concludes next past x

theorem Concludes.pure {a : α} {x : Except StorageError α}
    (h : (Pure.pure a : Plan α).Concludes past x) : past = [] ∧ x = .ok a := h

theorem Concludes.fail {e : StorageError} {x : Except StorageError α}
    (h : (Plan.fail e : Plan α).Concludes past x) : past = [] ∧ x = .error e := h

theorem Concludes.ofExcept {r x : Except StorageError α} (h : (Plan.ofExcept r).Concludes past x) :
    past = [] ∧ x = r := h

/-- A single request is one exchange. -/
theorem Concludes.ask {r : Request} {x : Except StorageError r.Reply}
    (h : (Plan.ask r).Concludes past x) :
    ∃ (reply : Except StoreError r.Reply) (before after : σ),
      past = [⟨r, reply, before, after⟩] ∧ x = reply.mapError .ofStore := by
  obtain ⟨reply, before, after, rest, rfl, rfl, rfl⟩ := h
  exact ⟨reply, before, after, rfl, rfl⟩

/-- A plan that goes on with the result of another ends with its error, or both come to their
ends, one after the other. -/
theorem Concludes.bind {p : Plan α} {f : α → Plan β} {x : Except StorageError β}
    (h : (p >>= f).Concludes past x) :
    (∃ e, p.Concludes past (.error e) ∧ x = .error e) ∨
      ∃ a first rest, past = first ++ rest ∧ p.Concludes first (.ok a) ∧
        (f a).Concludes rest x := by
  change (p.bind f).Concludes past x at h
  induction p generalizing past with
  | done result =>
      cases result with
      | ok a => exact .inr ⟨a, [], past, rfl, ⟨rfl, rfl⟩, h⟩
      | error e =>
          obtain ⟨hpast, hx⟩ := h
          exact .inl ⟨e, ⟨hpast, rfl⟩, hx⟩
  | call r next ih =>
      obtain ⟨reply, before, after, rest, rfl, hrest⟩ := h
      rcases ih reply hrest with ⟨e, he, hx⟩ | ⟨a, first, later, rfl, hfirst, hlater⟩
      · exact .inl ⟨e, ⟨reply, before, after, rest, rfl, he⟩, hx⟩
      · exact .inr ⟨a, _ :: first, later, rfl, ⟨reply, before, after, first, rfl, hfirst⟩, hlater⟩
  | acquire key next ih => exact ih h
  | release key next ih => exact ih h

/-- A plan that succeeds has gone on with a result. -/
theorem Concludes.bind_ok {p : Plan α} {f : α → Plan β} {b : β}
    (h : (p >>= f).Concludes past (.ok b)) :
    ∃ a first rest, past = first ++ rest ∧ p.Concludes first (.ok a) ∧
      (f a).Concludes rest (.ok b) := by
  rcases h.bind with ⟨e, -, hx⟩ | hgone
  · cases hx
  · exact hgone

/-- What is known already takes no exchange. -/
theorem Concludes.known {r : Except StorageError α} {f : α → Plan β} {b : β}
    (h : (Plan.ofExcept r >>= f).Concludes past (.ok b)) :
    ∃ a, r = .ok a ∧ (f a).Concludes past (.ok b) := by
  obtain ⟨a, first, rest, rfl, ⟨rfl, hr⟩, hrest⟩ := h.bind_ok
  exact ⟨a, hr.symm, hrest⟩

/-- A lock is no exchange. -/
theorem Concludes.locked {key : String} {p : Plan α} {x : Except StorageError α}
    (h : (p.locked key).Concludes past x) : p.Concludes past x := by
  change (p.thenRelease key).Concludes past x at h
  induction p generalizing past with
  | done result => exact h
  | call r next ih =>
      obtain ⟨reply, before, after, rest, rfl, hrest⟩ := h
      exact ⟨reply, before, after, rest, rfl, ih reply hrest⟩
  | acquire key next ih => exact ih h
  | release key next ih => exact ih h

end Plan

/-! ### Crews -/

namespace Crew

open Log (own)

variable {α σ : Type} {answer : Plan.Answering σ} {c : Crew σ α} {plans : List (Plan α)}
  {log : Log σ}

/-- What the plan that a worker is left with comes to, the plan that it began with has come to
with what the worker has exchanged. -/
def Traced (plans : List (Plan α)) (c : Crew σ α) (log : Log σ) : Prop :=
  ∀ (i : Nat) (w : Worker α) (q : Plan α), c.workers[i]? = some w → w.plan = some q →
    ∃ p, plans[i]? = some p ∧ ∀ later x, q.Concludes later x → p.Concludes (own i log ++ later) x

theorem traced_start (store : σ) (plans : List (Plan α)) : Traced plans (start store plans) [] := by
  intro i w q hw hq
  have hget : (plans.map fun p => ({ plan := some p } : Worker α))[i]? = some w := hw
  rw [List.getElem?_map, Option.map_eq_some_iff] at hget
  obtain ⟨p, hp, rfl⟩ := hget
  cases hq
  exact ⟨q, hp, fun _ _ h => h⟩

/-- A worker goes on without an exchange. -/
theorem Traced.set (h : Traced plans c log) {locks : LockTable Nat} {i : Nat} {v w : Worker α}
    (hv : c.workers[i]? = some v)
    (hw : ∀ q, w.plan = some q → ∃ p, v.plan = some p ∧
      ∀ (later : List (Exchange σ)) x, q.Concludes later x → p.Concludes later x) :
    Traced plans { c with locks, workers := c.workers.set i w } log := by
  intro j u q hu hq
  rcases workers_set hu with ⟨rfl, rfl⟩ | ⟨-, hu⟩
  · obtain ⟨p, hp, hconcludes⟩ := hw q hq
    obtain ⟨p₀, hp₀, hback⟩ := h _ v p hv hp
    exact ⟨p₀, hp₀, fun later x hq => hback later x (hconcludes later x hq)⟩
  · exact h j u q hu hq

/-- A step against any store, be it one that fails. -/
theorem Traced.step (h : Traced plans c log) (answer : Plan.Answering σ) (i : Nat) :
    Traced plans (c.step answer i) (log ++ (c.exchange? answer i).toList) := by
  unfold Crew.step exchange?
  rcases hworker : c.workers[i]? with _ | v
  · exact (List.append_nil log).symm ▸ h
  dsimp only
  rcases hplan : v.plan with _ | p
  · exact (List.append_nil log).symm ▸ h
  cases p with
  | done result => exact (List.append_nil log).symm ▸ h
  | call r next =>
      intro j u q hu hq
      rcases workers_set hu with ⟨rfl, rfl⟩ | ⟨hne, hu⟩
      · cases hq
        obtain ⟨p₀, hp₀, hback⟩ := h _ v _ hworker hplan
        refine ⟨p₀, hp₀, fun later x hlater => ?_⟩
        rw [Option.toList_some, Log.own_append, Log.own_singleton_self, List.append_assoc]
        exact hback _ x ⟨_, _, _, later, rfl, hlater⟩
      · obtain ⟨p₀, hp₀, hback⟩ := h j u q hu hq
        rw [Option.toList_some, Log.own_append, Log.own_singleton_ne hne.symm, List.append_nil]
        exact ⟨p₀, hp₀, hback⟩
  | acquire key next =>
      dsimp only
      rw [Option.toList_none, List.append_nil]
      refine h.set hworker fun q hq => ⟨_, hplan, fun later x hlater => ?_⟩
      -- with or without the lock, the same is left to be exchanged
      split_ifs at hq
      all_goals
        cases hq
        exact hlater
  | release key next =>
      dsimp only
      rw [Option.toList_none, List.append_nil]
      refine h.set hworker fun q hq => ⟨_, hplan, fun later x hlater => ?_⟩
      cases hq
      exact hlater

theorem Traced.dismiss (h : Traced plans c log) (i : Nat) : Traced plans (c.dismiss i) log := by
  unfold Crew.dismiss
  rcases hworker : c.workers[i]? with _ | v
  · exact h
  · exact h.set hworker fun q hq => nomatch hq

theorem Traced.advance (h : Traced plans c log) (answer : Plan.Answering σ) (event : Event) :
    Traced plans (c.advance answer event) (log ++ (c.exchangeAt? answer event).toList) := by
  cases event with
  | step i => exact h.step answer i
  | fail i e => exact h.step (failing e) i
  | dismiss i => exact (List.append_nil log).symm ▸ h.dismiss i

theorem Traced.events (h : Traced plans c log) (events : List Event) :
    Traced plans (events.foldl (Crew.advance answer) c) (log ++ c.log answer events) := by
  induction events generalizing c log with
  | nil => exact (List.append_nil log).symm ▸ h
  | cons event events ih =>
      have hrest := ih (h.advance answer event)
      rw [List.append_assoc] at hrest
      exact hrest

/-- **A worker that is done has followed its plan**: what it has exchanged with the store brings
the plan to its result. -/
theorem concludes_of_result {store : σ} {events : List Event} {i : Nat} {w : Worker α}
    {p : Plan α} {x : Except StorageError α} (hp : plans[i]? = some p)
    (hw : (events.foldl (Crew.advance answer) (start store plans)).workers[i]? = some w)
    (hx : w.result? = some x) :
    p.Concludes (own i ((start store plans).log answer events)) x := by
  have hplan : w.plan = some (.done x) := by
    unfold Worker.result? at hx
    split at hx
    · cases hx
      assumption
    · cases hx
  obtain ⟨p₀, hp₀, hback⟩ := (traced_start store plans).events events i w _ hw hplan
  cases hp.symm.trans hp₀
  have hconcludes := hback [] x ⟨rfl, rfl⟩
  rwa [List.append_nil, List.nil_append] at hconcludes

end Crew

end IdentityStore
