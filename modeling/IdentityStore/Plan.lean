/-
What an operation does, as a value.

A plan is a tree: it is done, or it makes one request and goes on with the answer,
or it takes or gives back the lock of a key.  A plan decides nothing that it could
not decide from answers, so that to know all its runs it is enough to know the tree.

`run` follows a plan against a store that nobody else uses.  With nobody else about,
a lock is had for the asking; how plans run beside each other is another matter.
-/
import IdentityStore.StorageError
import IdentityStore.Store.Request

namespace IdentityStore

/-- The steps that lead to a result. -/
inductive Plan (α : Type) where
  | done (result : Except StorageError α)
  | call (request : Request) (next : Except StoreError request.Reply → Plan α)
  | acquire (key : String) (next : Plan α)
  | release (key : String) (next : Plan α)

namespace Plan

variable {α β σ : Type}

/-! ### Building plans -/

/-- Goes on with the result of a plan; an error ends it. -/
def bind : Plan α → (α → Plan β) → Plan β
  | .done (.ok a), f => f a
  | .done (.error e), _ => .done (.error e)
  | .call r next, f => .call r fun reply => bind (next reply) f
  | .acquire key next, f => .acquire key (bind next f)
  | .release key next, f => .release key (bind next f)

instance : Monad Plan where
  pure a := .done (.ok a)
  bind := bind

/-- Ends with an error. -/
def fail (e : StorageError) : Plan α := .done (.error e)

/-- Ends with what is already known. -/
def ofExcept (r : Except StorageError α) : Plan α := .done r

/-- Makes a request; an error of the store ends the plan. -/
def ask (r : Request) : Plan r.Reply := .call r fun reply => .done (reply.mapError .ofStore)

/-- Gives a lock back at the end of a plan, whatever its result. -/
def thenRelease (key : String) : Plan α → Plan α
  | .done result => .release key (.done result)
  | .call r next => .call r fun reply => thenRelease key (next reply)
  | .acquire k next => .acquire k (thenRelease key next)
  | .release k next => .release k (thenRelease key next)

/-- Follows a plan while holding the lock of a key. -/
def locked (key : String) (p : Plan α) : Plan α := .acquire key (p.thenRelease key)

@[simp] theorem pure_eq (a : α) : (pure a : Plan α) = .done (.ok a) := rfl

@[simp] theorem bind_eq (p : Plan α) (f : α → Plan β) : p >>= f = p.bind f := rfl

@[simp] theorem bind_done_ok (a : α) (f : α → Plan β) : bind (.done (.ok a)) f = f a := rfl

@[simp] theorem bind_done_error (e : StorageError) (f : α → Plan β) :
    bind (.done (.error e)) f = .done (.error e) := rfl

theorem bind_pure (p : Plan α) : p.bind (fun a => .done (.ok a)) = p := by
  induction p with
  | done r => cases r <;> rfl
  | call r next ih => simp [bind, ih]
  | acquire key next ih => simp [bind, ih]
  | release key next ih => simp [bind, ih]

theorem bind_assoc {γ : Type} (p : Plan α) (f : α → Plan β) (g : β → Plan γ) :
    (p.bind f).bind g = p.bind fun a => (f a).bind g := by
  induction p with
  | done r => cases r <;> rfl
  | call r next ih => simp [bind, ih]
  | acquire key next ih => simp [bind, ih]
  | release key next ih => simp [bind, ih]

/-! ### Following a plan alone -/

/-- How a store answers: the reply and the store after it. -/
abbrev Answering (σ : Type) := σ → (r : Request) → Except StoreError r.Reply × σ

/-- The result of a plan against a store that nobody else uses, and the store after
it. -/
def run (answer : Answering σ) : Plan α → σ → Except StorageError α × σ
  | .done result, s => (result, s)
  | .call r next, s =>
    let (reply, s) := answer s r
    run answer (next reply) s
  | .acquire _ next, s => run answer next s
  | .release _ next, s => run answer next s

@[simp] theorem run_done (answer : Answering σ) (r : Except StorageError α) (s : σ) :
    (done r).run answer s = (r, s) := rfl

theorem run_bind (answer : Answering σ) (p : Plan α) (f : α → Plan β) (s : σ) :
    (p.bind f).run answer s =
      match p.run answer s with
      | (.ok a, s) => (f a).run answer s
      | (.error e, s) => (.error e, s) := by
  induction p generalizing s with
  | done r => cases r <;> rfl
  | call r next ih => simp only [bind, run, ih]
  | acquire key next ih => simp only [bind, run, ih]
  | release key next ih => simp only [bind, run, ih]

theorem run_thenRelease (answer : Answering σ) (key : String) (p : Plan α) (s : σ) :
    (p.thenRelease key).run answer s = p.run answer s := by
  induction p generalizing s with
  | done r => rfl
  | call r next ih => simp only [thenRelease, run, ih]
  | acquire key next ih => simp only [thenRelease, run, ih]
  | release key next ih => simp only [thenRelease, run, ih]

/-- Alone, a lock changes nothing. -/
theorem run_locked (answer : Answering σ) (key : String) (p : Plan α) (s : σ) :
    (p.locked key).run answer s = p.run answer s := run_thenRelease answer key p s

variable {answer : Answering σ} {s s' : σ}

theorem run_ofExcept (r : Except StorageError α) : (ofExcept r).run answer s = (r, s) := rfl

theorem run_ask (r : Request) :
    (ask r).run answer s = ((answer s r).1.mapError .ofStore, (answer s r).2) := rfl

/-- A plan that goes on with a result. -/
theorem run_bind_ok {p : Plan α} {f : α → Plan β} {a : α} (h : p.run answer s = (.ok a, s')) :
    (p >>= f).run answer s = (f a).run answer s' := by
  show (p.bind f).run answer s = _
  rw [run_bind, h]

/-- A plan that ends with an error. -/
theorem run_bind_error {p : Plan α} {f : α → Plan β} {e : StorageError}
    (h : p.run answer s = (.error e, s')) : (p >>= f).run answer s = (.error e, s') := by
  show (p.bind f).run answer s = _
  rw [run_bind, h]

/-- A plan that goes on with a result has ended before, or has gone on. -/
theorem run_bind_cases {p : Plan α} {f : α → Plan β} {x : Except StorageError β}
    (h : (p >>= f).run answer s = (x, s')) :
    (∃ e, p.run answer s = (.error e, s') ∧ x = .error e) ∨
      ∃ a s₁, p.run answer s = (.ok a, s₁) ∧ (f a).run answer s₁ = (x, s') := by
  rcases hp : p.run answer s with ⟨e | a, s₁⟩
  · rw [run_bind_error hp] at h
    cases h
    exact .inl ⟨e, rfl, rfl⟩
  · rw [run_bind_ok hp] at h
    exact .inr ⟨a, s₁, rfl, h⟩

/-- A request that fails ends a plan with the error of the store. -/
theorem run_ask_error {r : Request} {e : StorageError} (h : (ask r).run answer s = (.error e, s')) :
    ∃ cause, e = .ofStore cause := by
  rw [run_ask] at h
  rcases hreply : (answer s r).1 with cause | a
  · rw [hreply] at h
    cases h
    exact ⟨cause, rfl⟩
  · rw [hreply] at h
    cases h

theorem run_ask_ok {r : Request} {a : r.Reply} (h : (ask r).run answer s = (.ok a, s')) :
    (answer s r).1 = .ok a := by
  rw [run_ask] at h
  rcases hreply : (answer s r).1 with cause | b
  · rw [hreply] at h
    cases h
  · rw [hreply] at h
    cases h
    rfl

end Plan

end IdentityStore
