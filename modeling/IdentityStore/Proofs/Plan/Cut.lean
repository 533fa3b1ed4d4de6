/-
Plans that run alone and are cut short.

A call of the store may fail without being run, and then the plan goes on with the error,
which mostly means that it ends.  What has to hold wherever that happens is put together
like the plan itself: `Safe` follows the plan from a store that is known, and at each call
goes on with the answer as well as with every error.

A look-up only reads, and ends with the first error of the store.  So it leaves the store
as it is, and unless a call failed it ends as if none had.
-/
import IdentityStore.Plan
import Mathlib.Tactic.Common

namespace IdentityStore

namespace Request

/-- Holds for the requests that leave the store as it is. -/
def isRead : Request → Bool
  | .get _ | .getMany _ | .has _ | .list _ | .scan _ => true
  | .set _ _ | .delete _ | .setList _ _ => false

end Request

namespace Plan

variable {α β σ : Type} {answer : Answering σ} {I : σ → Prop} {s : σ}

/-- A store of which some calls fail without being run.  The script has an error for each
call to come that fails; the calls that it does not reach are run. -/
def flaky (answer : Answering σ) : Answering (σ × List (Option StoreError)) :=
  fun (s, script) r =>
    match script with
    | [] => ((answer s r).1, (answer s r).2, [])
    | none :: script => ((answer s r).1, (answer s r).2, script)
    | some e :: script => (.error e, s, script)

/-! ### Wherever a plan is cut short -/

/-- Wherever calls fail, the plan leaves a store with the invariant, and what it ends with
has the property `Q` in that store. -/
def Safe (answer : Answering σ) (I : σ → Prop) (Q : α → σ → Prop) : Plan α → σ → Prop
  | .done result, s => I s ∧ ∀ a, result = .ok a → Q a s
  | .call r next, s =>
    Safe answer I Q (next (answer s r).1) (answer s r).2 ∧ ∀ e, Safe answer I Q (next (.error e)) s
  | .acquire _ next, s => Safe answer I Q next s
  | .release _ next, s => Safe answer I Q next s

theorem safe_pure {Q : α → σ → Prop} {a : α} (hs : I s) (h : Q a s) :
    (pure a : Plan α).Safe answer I Q s := by
  refine ⟨hs, fun b hb => ?_⟩
  cases hb
  exact h

theorem safe_fail {Q : α → σ → Prop} (hs : I s) (e : StorageError) :
    (fail e : Plan α).Safe answer I Q s := ⟨hs, fun _ h => nomatch h⟩

/-- A single request. -/
theorem safe_ask {r : Request} {Q : r.Reply → σ → Prop} (hs : I s) (hs' : I (answer s r).2)
    (h : ∀ a, (answer s r).1 = .ok a → Q a (answer s r).2) :
    (ask r).Safe answer I Q s := by
  refine ⟨⟨hs', fun a ha => ?_⟩, fun e => ⟨hs, fun _ h => nomatch h⟩⟩
  rcases hreply : (answer s r).1 with e | b
  · rw [hreply] at ha
    cases ha
  · rw [hreply] at ha
    cases ha
    exact h _ hreply

/-- A plan that goes on with the result of another. -/
theorem safe_bind {Q : α → σ → Prop} {R : β → σ → Prop} {p : Plan α} {f : α → Plan β}
    (hp : p.Safe answer I Q s) (hf : ∀ a s', I s' → Q a s' → (f a).Safe answer I R s') :
    (p >>= f).Safe answer I R s := by
  show (p.bind f).Safe answer I R s
  induction p generalizing s with
  | done result =>
      cases result with
      | ok a => exact hf a s hp.1 (hp.2 a rfl)
      | error e => exact ⟨hp.1, fun _ h => nomatch h⟩
  | call r next ih => exact ⟨ih _ hp.1, fun e => ih _ (hp.2 e)⟩
  | acquire key next ih => exact ih hp
  | release key next ih => exact ih hp

theorem Safe.mono {Q R : α → σ → Prop} {p : Plan α} (h : p.Safe answer I Q s)
    (hQR : ∀ a s', I s' → Q a s' → R a s') : p.Safe answer I R s := by
  induction p generalizing s with
  | done result => exact ⟨h.1, fun a ha => hQR a s h.1 (h.2 a ha)⟩
  | call r next ih => exact ⟨ih _ h.1, fun e => ih _ (h.2 e)⟩
  | acquire key next ih => exact ih h
  | release key next ih => exact ih h

theorem safe_locked {Q : α → σ → Prop} {key : String} {p : Plan α} (h : p.Safe answer I Q s) :
    (p.locked key).Safe answer I Q s := by
  show (p.thenRelease key).Safe answer I Q s
  induction p generalizing s with
  | done result => exact h
  | call r next ih => exact ⟨ih _ h.1, fun e => ih _ (h.2 e)⟩
  | acquire k next ih => exact ih h
  | release k next ih => exact ih h

/-- A safe plan leaves the invariant if no call fails. -/
theorem Safe.run {Q : α → σ → Prop} {p : Plan α} (h : p.Safe answer I Q s) :
    I (p.run answer s).2 := by
  induction p generalizing s with
  | done result => exact h.1
  | call r next ih => exact ih _ h.1
  | acquire key next ih => exact ih h
  | release key next ih => exact ih h

/-- **A safe plan leaves the invariant**, whichever of its calls fail. -/
theorem Safe.run_flaky {Q : α → σ → Prop} {p : Plan α} (h : p.Safe answer I Q s)
    (script : List (Option StoreError)) :
    I (p.run (flaky answer) (s, script)).2.1 ∧
      ∀ a, (p.run (flaky answer) (s, script)).1 = .ok a →
        Q a (p.run (flaky answer) (s, script)).2.1 := by
  induction p generalizing s script with
  | done result => exact h
  | call r next ih =>
      match script with
      | [] => exact ih _ h.1 []
      | none :: script => exact ih _ h.1 script
      | some e :: script => exact ih _ (h.2 e) script
  | acquire key next ih => exact ih h script
  | release key next ih => exact ih h script

/-! ### Look-ups -/

/-- The plan only reads, and an error of the store ends it. -/
def Looks : Plan α → Prop
  | .done _ => True
  | .call r next =>
    r.isRead = true ∧ (∀ reply, Looks (next reply)) ∧
      ∀ e, next (.error e) = .done (.error (.ofStore e))
  | .acquire _ _ => False
  | .release _ _ => False

theorem looks_pure (a : α) : (pure a : Plan α).Looks := trivial

theorem looks_fail (e : StorageError) : (fail e : Plan α).Looks := trivial

theorem looks_ofExcept (r : Except StorageError α) : (ofExcept r).Looks := trivial

theorem looks_ask {r : Request} (h : r.isRead = true) : (ask r).Looks :=
  ⟨h, fun _ => trivial, fun _ => rfl⟩

theorem looks_bind {p : Plan α} {f : α → Plan β} (hp : p.Looks) (hf : ∀ a, (f a).Looks) :
    (p >>= f).Looks := by
  show (p.bind f).Looks
  induction p with
  | done result =>
      cases result with
      | ok a => exact hf a
      | error e => trivial
  | call r next ih =>
      refine ⟨hp.1, fun reply => ih reply (hp.2.1 reply), fun e => ?_⟩
      show (next (.error e)).bind f = _
      rw [hp.2.2 e]
      rfl
  | acquire key next ih => exact hp
  | release key next ih => exact hp

/-- A look-up leaves the store as it is and ends as if it had not been cut short, unless it
ends with an error. -/
theorem Looks.safe {p : Plan α} (h : p.Looks)
    (hread : ∀ r, r.isRead = true → (answer s r).2 = s) (hs : I s) :
    p.Safe answer I (fun a s' => s' = s ∧ p.run answer s = (.ok a, s)) s := by
  induction p with
  | done result =>
      refine ⟨hs, fun a ha => ⟨rfl, ?_⟩⟩
      rw [run_done, ha]
  | call r next ih =>
      have hstore := hread r h.1
      refine ⟨?_, fun e => ?_⟩
      · rw [hstore]
        refine (ih _ (h.2.1 _)).mono fun a s' _ ⟨hs', hrun⟩ => ⟨hs', ?_⟩
        show (next (answer s r).1).run answer (answer s r).2 = _
        rw [hstore, hrun]
      · rw [h.2.2 e]
        exact safe_fail hs _
  | acquire key next ih => exact h.elim
  | release key next ih => exact h.elim

/-- A look-up that runs alone leaves the store as it is. -/
theorem Looks.run_store {p : Plan α} (h : p.Looks)
    (hread : ∀ r, r.isRead = true → (answer s r).2 = s) : (p.run answer s).2 = s := by
  induction p with
  | done result => rfl
  | call r next ih =>
      show ((next (answer s r).1).run answer (answer s r).2).2 = s
      rw [hread r h.1]
      exact ih _ (h.2.1 _)
  | acquire key next ih => exact h.elim
  | release key next ih => exact h.elim

/-- A look-up ends with an error of the store, or as if no call had failed. -/
theorem Looks.run_flaky {p : Plan α} (h : p.Looks)
    (hread : ∀ r, r.isRead = true → (answer s r).2 = s) (script : List (Option StoreError)) :
    (p.run (flaky answer) (s, script)).1 = (p.run answer s).1 ∨
      ∃ e, (p.run (flaky answer) (s, script)).1 = .error (.ofStore e) := by
  induction p generalizing script with
  | done result => exact .inl rfl
  | call r next ih =>
      have hgo : ∀ script, ((next (answer s r).1).run (flaky answer) ((answer s r).2, script)).1
            = ((next (answer s r).1).run answer (answer s r).2).1 ∨
          ∃ e, ((next (answer s r).1).run (flaky answer) ((answer s r).2, script)).1
            = .error (.ofStore e) := by
        rw [hread r h.1]
        exact fun script => ih _ (h.2.1 _) script
      match script with
      | [] => exact hgo []
      | none :: script => exact hgo script
      | some e :: script =>
          refine .inr ⟨e, ?_⟩
          show ((next (.error e)).run (flaky answer) (s, script)).1 = _
          rw [h.2.2 e]
          rfl
  | acquire key next ih => exact h.elim
  | release key next ih => exact h.elim

end Plan

end IdentityStore
