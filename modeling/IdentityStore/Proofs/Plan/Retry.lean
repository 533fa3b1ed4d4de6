/-
Plans that are tried again.

An attempt is cut short when one of its calls fails without being run.  The plan can then
be tried again, and the question is whether the attempts that came to nothing can be told
from the answer or from the store.

Two shapes of plan answer it.  A plan that writes once, and last, leaves the store as it was
if it is cut short.  And a plan that writes several times can be resumed if it first looks
whether it may, if its writes do not make it look otherwise, and if a write that was made
before finds nothing to do: the next attempt looks, finds what the first one found, passes
over what is done, and goes on from there.
-/
import IdentityStore.Proofs.Plan.Cut
import Mathlib.Logic.Relation

namespace IdentityStore.Plan

variable {α β γ σ : Type} {answer : Answering σ} {s s' : σ} {p : Plan α} {f : α → Plan β}

/-! ### Attempts -/

/-- An attempt that is cut short leads from one store to another: some calls are run, and
the next one fails without being run.  What the plan makes of the error is its own affair. -/
def CutShort (answer : Answering σ) : Plan α → σ → σ → Prop
  | .done _, _, _ => False
  | .call r next, s, s' =>
    (∃ e, ((next (.error e)).run answer s).2 = s') ∨
      CutShort answer (next (answer s r).1) (answer s r).2 s'
  | .acquire _ next, s, s' => CutShort answer next s s'
  | .release _ next, s, s' => CutShort answer next s s'

/-- Any number of attempts, each of them cut short, lead from one store to another. -/
abbrev Attempts (answer : Answering σ) (p : Plan α) : σ → σ → Prop :=
  Relation.ReflTransGen (p.CutShort answer)

theorem run_flaky_nil (p : Plan α) (s : σ) :
    p.run (flaky answer) (s, []) = ((p.run answer s).1, (p.run answer s).2, []) := by
  induction p generalizing s with
  | done result => rfl
  | call r next ih => exact ih _ _
  | acquire key next ih => exact ih s
  | release key next ih => exact ih s

/-- An attempt is cut short where a store that is flaky fails it. -/
theorem cutShort_iff :
    p.CutShort answer s s' ↔ ∃ calls e,
      (p.run (flaky answer) (s, List.replicate calls none ++ [some e])).2 = (s', []) := by
  induction p generalizing s with
  | done result =>
      refine ⟨False.elim, fun ⟨calls, e, h⟩ => ?_⟩
      have hscript : List.replicate calls none ++ [some e] = [] := congrArg Prod.snd h
      simp at hscript
  | call r next ih =>
      constructor
      · rintro (⟨e, rfl⟩ | h)
        · exact ⟨0, e, congrArg Prod.snd (run_flaky_nil (next (.error e)) s)⟩
        · obtain ⟨calls, e, h⟩ := (ih _).mp h
          exact ⟨calls + 1, e, h⟩
      · rintro ⟨calls, e, h⟩
        cases calls with
        | zero =>
            have hend : ((next (.error e)).run (flaky answer) (s, [])).2 = (s', []) := h
            rw [run_flaky_nil] at hend
            exact .inl ⟨e, congrArg Prod.fst hend⟩
        | succ calls => exact .inr ((ih _).mpr ⟨calls, e, h⟩)
  | acquire key next ih => exact ih
  | release key next ih => exact ih

/-- The store that an attempt leaves of which some calls are run and the next one fails. -/
def brokenOff (answer : Answering σ) (p : Plan α) (s : σ) (calls : Nat) (e : StoreError) : σ :=
  (p.run (flaky answer) (s, List.replicate calls none ++ [some e])).2.1

theorem attempts_brokenOff (answer : Answering σ) (p : Plan α) (s : σ) (calls : Nat)
    (e : StoreError)
    (h : (p.run (flaky answer) (s, List.replicate calls none ++ [some e])).2.2 = []) :
    p.Attempts answer s (brokenOff answer p s calls e) :=
  .single (cutShort_iff.mpr ⟨calls, e, Prod.ext rfl h⟩)

/-- The first call that fails is the last one: the plan ends with its error. -/
def Stops (answer : Answering σ) : Plan α → Prop
  | .done _ => True
  | .call _ next =>
    (∀ reply, Stops answer (next reply)) ∧
      ∀ e s, (next (.error e)).run answer s = (.error (.ofStore e), s)
  | .acquire _ next => Stops answer next
  | .release _ next => Stops answer next

theorem stops_ask (r : Request) : (ask r).Stops answer := ⟨fun _ => trivial, fun _ _ => rfl⟩

theorem stops_bind (hp : p.Stops answer) (hf : ∀ a, (f a).Stops answer) :
    (p >>= f).Stops answer := by
  show (p.bind f).Stops answer
  induction p with
  | done result =>
      cases result with
      | ok a => exact hf a
      | error e => trivial
  | call r next ih =>
      refine ⟨fun reply => ih reply (hp.1 reply), fun e s => ?_⟩
      rw [run_bind, hp.2 e s]
  | acquire key next ih => exact ih hp
  | release key next ih => exact ih hp

theorem stops_locked {key : String} (hp : p.Stops answer) : (p.locked key).Stops answer := by
  show (p.thenRelease key).Stops answer
  induction p with
  | done result => trivial
  | call r next ih =>
      refine ⟨fun reply => ih reply (hp.1 reply), fun e s => ?_⟩
      rw [run_thenRelease, hp.2 e s]
  | acquire k next ih => exact ih hp
  | release k next ih => exact ih hp

theorem Looks.stops (hp : p.Looks) : p.Stops answer := by
  induction p with
  | done result => trivial
  | call r next ih =>
      refine ⟨fun reply => ih reply (hp.2.1 reply), fun e s => ?_⟩
      rw [hp.2.2 e, run_done]
  | acquire key next ih => exact hp.elim
  | release key next ih => exact hp.elim

/-- A plan that goes on with a result is cut short before it has the result, or after. -/
theorem CutShort.of_bind (hp : p.Stops answer) (h : (p >>= f).CutShort answer s s') :
    p.CutShort answer s s' ∨
      ∃ a s₁, p.run answer s = (.ok a, s₁) ∧ (f a).CutShort answer s₁ s' := by
  change (p.bind f).CutShort answer s s' at h
  induction p generalizing s with
  | done result =>
      cases result with
      | ok a => exact .inr ⟨a, s, rfl, h⟩
      | error e => exact h.elim
  | call r next ih =>
      rcases h with ⟨e, he⟩ | h
      · rw [run_bind, hp.2 e s] at he
        subst he
        exact .inl (.inl ⟨e, by rw [hp.2 e s]⟩)
      · rcases ih _ (hp.1 _) h with hcut | hrun
        · exact .inl (.inr hcut)
        · exact .inr hrun
  | acquire key next ih => exact ih hp h
  | release key next ih => exact ih hp h

theorem CutShort.of_locked {key : String} (h : (p.locked key).CutShort answer s s') :
    p.CutShort answer s s' := by
  change (p.thenRelease key).CutShort answer s s' at h
  induction p generalizing s with
  | done result => exact h
  | call r next ih =>
      rcases h with ⟨e, he⟩ | h
      · rw [run_thenRelease] at he
        exact .inl ⟨e, he⟩
      · exact .inr (ih _ h)
  | acquire k next ih => exact ih h
  | release k next ih => exact ih h

/-! ### Trying again -/

/-- An attempt that is cut short makes no difference to the next one. -/
structure Retryable (answer : Answering σ) (p : Plan α) : Prop where
  stops : p.Stops answer
  again : ∀ {s s'}, p.CutShort answer s s' → p.run answer s' = p.run answer s

/-- **No number of attempts makes a difference**: whatever they left, the plan comes to the
same result and the same store as if it had not been tried before. -/
theorem Retryable.run_eq (h : p.Retryable answer) (hs : p.Attempts answer s s') :
    p.run answer s' = p.run answer s := by
  induction hs with
  | refl => rfl
  | tail _ hcut ih => rw [h.again hcut, ih]

theorem Retryable.map (h : p.Retryable answer) (g : α → β) :
    (p >>= fun a => pure (g a)).Retryable answer where
  stops := stops_bind h.stops fun _ => trivial
  again := by
    intro s s' hcut
    rcases CutShort.of_bind h.stops hcut with hcut | ⟨a, s₁, -, hcut⟩
    · show (p.bind _).run answer s' = (p.bind _).run answer s
      rw [run_bind, run_bind, h.again hcut]
    · exact hcut.elim

/-! ### A single write -/

/-- A plan that is cut short has done nothing. -/
structure AllOrNothing (answer : Answering σ) (p : Plan α) : Prop where
  stops : p.Stops answer
  unchanged : ∀ {s s'}, p.CutShort answer s s' → s' = s

theorem AllOrNothing.retryable (h : p.AllOrNothing answer) : p.Retryable answer where
  stops := h.stops
  again hcut := by rw [h.unchanged hcut]

theorem allOrNothing_done (result : Except StorageError α) : (done result).AllOrNothing answer :=
  ⟨trivial, False.elim⟩

theorem allOrNothing_ask (r : Request) : (ask r).AllOrNothing answer where
  stops := stops_ask r
  unchanged := by
    rintro s s' (⟨e, rfl⟩ | hcut)
    · rfl
    · exact hcut.elim

theorem AllOrNothing.locked {key : String} (h : p.AllOrNothing answer) :
    (p.locked key).AllOrNothing answer :=
  ⟨stops_locked h.stops, fun hcut => h.unchanged hcut.of_locked⟩

/-- What a plan that is through goes on with makes no difference, if that calls nothing. -/
theorem AllOrNothing.map (h : p.AllOrNothing answer) (g : α → β) :
    (p >>= fun a => pure (g a)).AllOrNothing answer where
  stops := stops_bind h.stops fun _ => trivial
  unchanged := by
    intro s s' hcut
    rcases CutShort.of_bind h.stops hcut with hcut | ⟨a, s₁, -, hcut⟩
    · exact h.unchanged hcut
    · exact hcut.elim

section

variable (hread : ∀ s r, r.isRead = true → (answer s r).2 = s)
include hread

theorem Looks.cutShort (hp : p.Looks) (hcut : p.CutShort answer s s') : s' = s := by
  induction p with
  | done result => exact hcut.elim
  | call r next ih =>
      rcases hcut with ⟨e, rfl⟩ | hcut
      · rw [hp.2.2 e, run_done]
      · rw [hread s r hp.1] at hcut
        exact ih _ (hp.2.1 _) hcut
  | acquire key next ih => exact hp.elim
  | release key next ih => exact hp.elim

/-- A plan that looks first comes to a result if it does so after it has looked. -/
theorem Looks.run_bind_eq_ok (hp : p.Looks) {b : β} :
    (p >>= f).run answer s = (.ok b, s') ↔
      ∃ a, p.run answer s = (.ok a, s) ∧ (f a).run answer s = (.ok b, s') := by
  refine ⟨fun h => ?_, fun ⟨a, ha, hb⟩ => by rw [run_bind_ok ha, hb]⟩
  rcases run_bind_cases h with ⟨e, -, he⟩ | ⟨a, s₁, ha, hb⟩
  · cases he
  · obtain rfl : s₁ = s := by
      rw [← hp.run_store (hread s), ha]
    exact ⟨a, ha, hb⟩

theorem Looks.allOrNothing (hp : p.Looks) : p.AllOrNothing answer :=
  ⟨hp.stops, hp.cutShort hread⟩

/-- Looking first does no harm. -/
theorem allOrNothing_look (hp : p.Looks) (hf : ∀ a, (f a).AllOrNothing answer) :
    (p >>= f).AllOrNothing answer where
  stops := stops_bind hp.stops fun a => (hf a).stops
  unchanged := by
    intro s s' hcut
    rcases CutShort.of_bind hp.stops hcut with hlook | ⟨a, s₁, hrun, hrest⟩
    · exact hp.cutShort hread hlook
    · obtain rfl : s₁ = s := by
        rw [← hp.run_store (hread s), hrun]
      exact (hf a).unchanged hrest

end

/-! ### Several writes -/

/-- Plans one after the other. -/
def inTurn : List (Plan Unit) → Plan Unit
  | [] => pure ()
  | p :: rest => do
    p
    inTurn rest

/-- A plan finds nothing to do. -/
def Idle (answer : Answering σ) (p : Plan Unit) (s : σ) : Prop := p.run answer s = (.ok (), s)

variable {ps qs : List (Plan Unit)}

theorem inTurn_append (ps qs : List (Plan Unit)) :
    inTurn (ps ++ qs) = inTurn ps >>= fun _ => inTurn qs := by
  induction ps with
  | nil => rfl
  | cons p ps ih =>
      show (p.bind fun _ => inTurn (ps ++ qs)) = (p.bind fun _ => inTurn ps).bind fun _ => inTurn qs
      rw [ih, bind_assoc]
      rfl

theorem stops_inTurn (h : ∀ p ∈ ps, p.Stops answer) : (inTurn ps).Stops answer := by
  induction ps with
  | nil => trivial
  | cons p ps ih => exact stops_bind (h p (by simp)) fun _ => ih fun q hq => h q (by simp [hq])

theorem idle_inTurn (h : ∀ p ∈ ps, p.Idle answer s) : (inTurn ps).Idle answer s := by
  induction ps with
  | nil => rfl
  | cons p ps ih =>
      show (p >>= fun _ => inTurn ps).run answer s = _
      rw [run_bind_ok (h p (by simp))]
      exact ih fun q hq => h q (by simp [hq])

/-- Steps that do nothing by halves are cut short between two of them. -/
theorem CutShort.of_inTurn (h : ∀ p ∈ ps, p.AllOrNothing answer)
    (hcut : (inTurn ps).CutShort answer s s') :
    ∃ front back, ps = front ++ back ∧ (inTurn front).run answer s = (.ok (), s') := by
  induction ps generalizing s with
  | nil => exact hcut.elim
  | cons p ps ih =>
      have hp := h p (by simp)
      rcases CutShort.of_bind hp.stops hcut with hcut | ⟨_, s₁, hrun, hcut⟩
      · exact ⟨[], p :: ps, rfl, by rw [hp.unchanged hcut]; rfl⟩
      · obtain ⟨front, back, rfl, hfront⟩ := ih (fun q hq => h q (by simp [hq])) hcut
        refine ⟨p :: front, back, rfl, ?_⟩
        show (p >>= fun _ => inTurn front).run answer s = _
        rw [run_bind_ok hrun, hfront]

/-- What each of some steps leaves true holds after all of them. -/
theorem holds_of_inTurn {P : σ → Prop}
    (hstep : ∀ p ∈ ps, ∀ s s', P s → p.run answer s = (.ok (), s') → P s')
    (hs : P s) (hrun : (inTurn ps).run answer s = (.ok (), s')) : P s' := by
  induction ps generalizing s with
  | nil =>
      cases hrun
      exact hs
  | cons p ps ih =>
      rcases run_bind_cases hrun with ⟨e, -, he⟩ | ⟨_, s₁, hp, hrest⟩
      · cases he
      · exact ih (fun q hq => hstep q (by simp [hq])) (hstep p (by simp) _ _ hs hp) hrest

/-- Steps that can be resumed after they were cut short, once a check has passed: they leave
the check as it is, and a step that has been taken stays taken. -/
structure Resumable (answer : Answering σ) (check : Plan γ) (steps : γ → List (Plan Unit)) :
    Prop where
  looks : check.Looks
  whole : ∀ {a p}, p ∈ steps a → p.AllOrNothing answer
  passes : ∀ {a p s s'}, p ∈ steps a → check.run answer s = (.ok a, s) →
    p.run answer s = (.ok (), s') → check.run answer s' = (.ok a, s')
  settles : ∀ {a p s s'}, p ∈ steps a → check.run answer s = (.ok a, s) →
    p.run answer s = (.ok (), s') → p.Idle answer s'
  keeps : ∀ {a p q s s'}, p ∈ steps a → q ∈ steps a → check.run answer s = (.ok a, s) →
    q.run answer s = (.ok (), s') → p.Idle answer s → p.Idle answer s'

variable {check : Plan γ} {steps : γ → List (Plan Unit)} {a : γ}

/-- After some of the steps the check passes as before, and these steps are idle. -/
theorem Resumable.after (h : Resumable answer check steps) {front : List (Plan Unit)}
    (hfront : ∀ p ∈ front, p ∈ steps a) (hcheck : check.run answer s = (.ok a, s))
    (hrun : (inTurn front).run answer s = (.ok (), s')) :
    check.run answer s' = (.ok a, s') ∧ ∀ p ∈ front, p.Idle answer s' := by
  induction front generalizing s with
  | nil =>
      cases hrun
      exact ⟨hcheck, fun p hp => nomatch hp⟩
  | cons p front ih =>
      rcases run_bind_cases hrun with ⟨e, -, he⟩ | ⟨_, s₁, hp, hrest⟩
      · cases he
      have hpmem := hfront p (by simp)
      have hsub : ∀ q ∈ front, q ∈ steps a := fun q hq => hfront q (by simp [hq])
      have hcheck₁ := h.passes hpmem hcheck hp
      obtain ⟨hcheck', hidle⟩ := ih hsub hcheck₁ hrest
      -- the steps after `p` keep it idle, and the check as well, which they need for that
      have hp' : check.run answer s' = (.ok a, s') ∧ p.Idle answer s' := by
        refine holds_of_inTurn (P := fun s => check.run answer s = (.ok a, s) ∧ p.Idle answer s)
          (fun q hq s₂ s₃ h₂ hq₂ => ?_) ⟨hcheck₁, h.settles hpmem hcheck hp⟩ hrest
        exact ⟨h.passes (hsub q hq) h₂.1 hq₂, h.keeps hpmem (hsub q hq) h₂.1 hq₂ h₂.2⟩
      refine ⟨hcheck', fun q hq => ?_⟩
      rcases List.mem_cons.mp hq with rfl | hq
      · exact hp'.2
      · exact hidle q hq

/-- **Steps that can be resumed can be tried again**, and so can what is done last. -/
theorem Resumable.retryable (h : Resumable answer check steps)
    (hread : ∀ s r, r.isRead = true → (answer s r).2 = s) {last : γ → Plan α}
    (hlast : ∀ a, (last a).AllOrNothing answer) :
    (check >>= fun a => inTurn (steps a) >>= fun _ => last a).Retryable answer := by
  have hsteps : ∀ a, (inTurn (steps a)).Stops answer :=
    fun a => stops_inTurn fun p hp => (h.whole hp).stops
  refine ⟨stops_bind h.looks.stops fun a => stops_bind (hsteps a) fun _ => (hlast a).stops, ?_⟩
  intro s s' hcut
  rcases CutShort.of_bind h.looks.stops hcut with hlook | ⟨a, s₁, hcheck, hrest⟩
  · rw [h.looks.cutShort hread hlook]
  obtain rfl : s₁ = s := by
    rw [← h.looks.run_store (hread s), hcheck]
  -- wherever it was cut short, some of the steps were taken, and no more
  obtain ⟨front, back, hdivide, hfront⟩ : ∃ front back, steps a = front ++ back ∧
      (inTurn front).run answer s₁ = (.ok (), s') := by
    rcases CutShort.of_bind (hsteps a) hrest with htaken | ⟨_, s₂, hrun, hlate⟩
    · exact CutShort.of_inTurn (fun p hp => h.whole hp) htaken
    · rw [(hlast a).unchanged hlate]
      exact ⟨steps a, [], (List.append_nil _).symm, hrun⟩
  obtain ⟨hcheck', hidle⟩ :=
    h.after (fun p hp => hdivide ▸ List.mem_append_left _ hp) hcheck hfront
  have hagain : (inTurn (steps a)).run answer s' = (inTurn (steps a)).run answer s₁ := by
    rw [hdivide, inTurn_append, run_bind_ok hfront, run_bind_ok (idle_inTurn hidle)]
  rw [run_bind_ok hcheck, run_bind_ok hcheck']
  show ((inTurn (steps a)).bind _).run answer s' = ((inTurn (steps a)).bind _).run answer s₁
  rw [run_bind, run_bind, hagain]

end IdentityStore.Plan
