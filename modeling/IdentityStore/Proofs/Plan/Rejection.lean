/-
Plans that are rejected.

A request is rejected for what it asks: a name is not known, or is taken, or a payload is no
record.  The other errors tell of what lies below, and say nothing of the request.  Whether a
plan that is rejected has changed anything is seen from what it asked of the store: it has not
if it only read.

Most plans look first, and cannot be rejected any more once they write.  Where a check is made
again between writes, it passes because it passed before; that is known of the store and not of
the plan, so both properties here are of a plan and the store that it begins with, and follow
the plan as it runs.
-/
import IdentityStore.Proofs.Plan.Retry

namespace IdentityStore

namespace StorageError

/-- Holds for the errors that reject a request for what it asks. -/
def isRejection : StorageError → Bool
  | .notFound .. | .notFoundById .. | .notMember .. | .duplicate .. | .malformed ..
  | .renameRejected .. | .inconsistent .. => true
  | .unavailable _ | .internal _ => false

@[simp] theorem isRejection_ofStore (e : StoreError) : (ofStore e).isRejection = false := by
  unfold ofStore
  split <;> rfl

@[simp] theorem isRejection_corrupt (entity key reason : String) :
    (corrupt entity key reason).isRejection = false := rfl

end StorageError

namespace Plan

variable {α β σ : Type} {answer : Answering σ} {s s' : σ} {p : Plan α} {f : α → Plan β}

/-! ### What a plan asks -/

/-- The requests that a plan makes against a store that nobody else uses. -/
def requests (answer : Answering σ) : Plan α → σ → List Request
  | .done _, _ => []
  | .call r next, s => r :: requests answer (next (answer s r).1) (answer s r).2
  | .acquire _ next, s => requests answer next s
  | .release _ next, s => requests answer next s

theorem requests_bind_ok {a : α} (h : p.run answer s = (.ok a, s')) :
    (p >>= f).requests answer s = p.requests answer s ++ (f a).requests answer s' := by
  show (p.bind f).requests answer s = _
  induction p generalizing s with
  | done result =>
      cases h
      rfl
  | call r next ih => exact congrArg (List.cons r) (ih _ h)
  | acquire key next ih => exact ih h
  | release key next ih => exact ih h

theorem requests_bind_error {e : StorageError} (h : p.run answer s = (.error e, s')) :
    (p >>= f).requests answer s = p.requests answer s := by
  show (p.bind f).requests answer s = _
  induction p generalizing s with
  | done result =>
      cases h
      rfl
  | call r next ih => exact congrArg (List.cons r) (ih _ h)
  | acquire key next ih => exact ih h
  | release key next ih => exact ih h

theorem requests_locked (key : String) (p : Plan α) (s : σ) :
    (p.locked key).requests answer s = p.requests answer s := by
  show (p.thenRelease key).requests answer s = _
  induction p generalizing s with
  | done result => rfl
  | call r next ih => exact congrArg (List.cons r) (ih _ _)
  | acquire k next ih => exact ih s
  | release k next ih => exact ih s

theorem Looks.isRead_of_mem (hp : p.Looks) {r : Request} (hr : r ∈ p.requests answer s) :
    r.isRead = true := by
  induction p generalizing s with
  | done result => exact absurd hr List.not_mem_nil
  | call q next ih =>
      rcases List.mem_cons.mp hr with rfl | hr
      · exact hp.1
      · exact ih _ (hp.2.1 _) hr
  | acquire key next ih => exact hp.elim
  | release key next ih => exact hp.elim

/-- A plan that has only read has changed nothing. -/
theorem run_store_of_reads (hread : ∀ s r, r.isRead = true → (answer s r).2 = s)
    (h : ∀ r ∈ p.requests answer s, r.isRead = true) : (p.run answer s).2 = s := by
  induction p generalizing s with
  | done result => rfl
  | call r next ih =>
      have hstore : (answer s r).2 = s := hread s r (h r List.mem_cons_self)
      have hrest : ((next (answer s r).1).run answer (answer s r).2).2 = (answer s r).2 :=
        ih _ fun q hq => h q (List.mem_cons_of_mem r hq)
      exact hrest.trans hstore
  | acquire key next ih => exact ih h
  | release key next ih => exact ih h

/-! ### Plans that are not rejected -/

/-- The plan is not rejected: an error that it ends with tells of what lies below. -/
def Accepted (answer : Answering σ) (p : Plan α) (s : σ) : Prop :=
  ∀ e, (p.run answer s).1 = .error e → e.isRejection = false

theorem accepted_pure (a : α) (s : σ) : (pure a : Plan α).Accepted answer s :=
  fun _ h => nomatch h

/-- What the store answers is no rejection. -/
theorem accepted_ask (r : Request) (s : σ) : (ask r).Accepted answer s := by
  intro e h
  obtain ⟨cause, rfl⟩ := run_ask_error (Prod.ext h rfl)
  exact StorageError.isRejection_ofStore cause

theorem Idle.accepted {p : Plan Unit} (h : p.Idle answer s) : p.Accepted answer s := by
  intro e he
  rw [h] at he
  cases he

theorem accepted_bind (hp : p.Accepted answer s)
    (hf : ∀ a s', p.run answer s = (.ok a, s') → (f a).Accepted answer s') :
    (p >>= f).Accepted answer s := by
  intro e he
  rcases hrun : p.run answer s with ⟨e' | a, s'⟩
  · rw [run_bind_error hrun] at he
    cases he
    exact hp _ (congrArg Prod.fst hrun)
  · rw [run_bind_ok hrun] at he
    exact hf a s' hrun e he

theorem accepted_locked {key : String} (hp : p.Accepted answer s) :
    (p.locked key).Accepted answer s := by
  intro e he
  rw [run_locked] at he
  exact hp e he

/-- Steps are not rejected if none of them is where something holds that all of them keep. -/
theorem accepted_inTurn {ps : List (Plan Unit)} {P : σ → Prop}
    (hstep : ∀ p ∈ ps, ∀ s, P s →
      p.Accepted answer s ∧ ∀ s', p.run answer s = (.ok (), s') → P s')
    (hs : P s) : (inTurn ps).Accepted answer s := by
  induction ps generalizing s with
  | nil => exact accepted_pure () s
  | cons p ps ih =>
      obtain ⟨haccepted, hkept⟩ := hstep p List.mem_cons_self s hs
      refine accepted_bind haccepted ?_
      intro _ s' hrun
      exact ih (fun q hq => hstep q (List.mem_cons_of_mem p hq)) (hkept s' hrun)

/-! ### Plans that look before they write -/

/-- If the plan is rejected, it has only read. -/
def Cautious (answer : Answering σ) (p : Plan α) (s : σ) : Prop :=
  ∀ e, (p.run answer s).1 = .error e → e.isRejection = true →
    ∀ r ∈ p.requests answer s, r.isRead = true

theorem Accepted.cautious (h : p.Accepted answer s) : p.Cautious answer s := by
  intro e he hrejected
  rw [h e he] at hrejected
  cases hrejected

theorem Looks.cautious (h : p.Looks) (s : σ) : p.Cautious answer s :=
  fun _ _ _ _ hr => h.isRead_of_mem hr

theorem Cautious.locked {key : String} (h : p.Cautious answer s) :
    (p.locked key).Cautious answer s := by
  intro e he hrejected
  rw [run_locked] at he
  rw [requests_locked]
  exact h e he hrejected

/-- Looking first is no harm. -/
theorem cautious_look (hread : ∀ s r, r.isRead = true → (answer s r).2 = s) (hp : p.Looks)
    (hf : ∀ a, p.run answer s = (.ok a, s) → (f a).Cautious answer s) :
    (p >>= f).Cautious answer s := by
  intro e he hrejected r hr
  have hstore : (p.run answer s).2 = s := hp.run_store (hread s)
  rcases hrun : (p.run answer s).1 with e' | a
  · rw [requests_bind_error (Prod.ext hrun hstore)] at hr
    exact hp.isRead_of_mem hr
  · have hok : p.run answer s = (.ok a, s) := Prod.ext hrun hstore
    rw [run_bind_ok hok] at he
    rw [requests_bind_ok hok] at hr
    rcases List.mem_append.mp hr with hr | hr
    · exact hp.isRead_of_mem hr
    · exact hf a hok e he hrejected r hr

/-- What a plan goes on with makes no difference if that asks nothing. -/
theorem Cautious.map (h : p.Cautious answer s) (g : α → β) :
    (p >>= fun a => pure (g a)).Cautious answer s := by
  intro e he hrejected r hr
  rcases hrun : p.run answer s with ⟨e' | a, s'⟩
  · rw [run_bind_error hrun] at he
    cases he
    rw [requests_bind_error hrun] at hr
    exact h _ (congrArg Prod.fst hrun) hrejected r hr
  · rw [run_bind_ok hrun] at he
    cases he

end Plan

end IdentityStore
