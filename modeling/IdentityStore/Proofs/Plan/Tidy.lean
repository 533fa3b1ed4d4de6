/-
Plans that leave nothing behind.

A plan is tidy if it takes locks in the order of their keys, gives back all that it took, and
lets the first call that fails end it: all that comes after that call is that locks are given
back, and then the error of the store.  `Tidy` follows a plan with the locks that it holds and
is put together like the plan itself, so that a plan made of tidy parts is tidy.

The order of the keys is a rank.  A plan that holds a lock asks only for locks of a higher
rank; in particular it asks for no lock that it holds.
-/
import IdentityStore.Proofs.Plan.Cut

namespace IdentityStore.Plan

variable {α β : Type} {rank : String → Nat} {base held : List String} {e : StorageError}
  {p : Plan α} {f : α → Plan β}

/-- All that is left of the plan is to give locks back, until it holds the locks `base`, and
to end with an error. -/
def Quits (e : StorageError) (base : List String) : Plan α → List String → Prop
  | .done result, held => held = base ∧ result = .error e
  | .call _ _, _ => False
  | .acquire _ _, _ => False
  | .release key next, held => key ∈ held ∧ Quits e base next (held.erase key)

/-- From some held locks on, the plan asks only for locks that rank above all that it holds,
quits when a call fails, and holds the locks `base` in the end. -/
def Tidy (rank : String → Nat) (base : List String) : Plan α → List String → Prop
  | .done _, held => held = base
  | .call _ next, held =>
    (∀ a, Tidy rank base (next (.ok a)) held) ∧ ∀ e, Quits (.ofStore e) base (next (.error e)) held
  | .acquire key next, held => (∀ k ∈ held, rank k < rank key) ∧ Tidy rank base next (key :: held)
  | .release key next, held => key ∈ held ∧ Tidy rank base next (held.erase key)

/-! ### Plans that quit -/

theorem Quits.tidy (h : p.Quits e base held) : p.Tidy rank base held := by
  induction p generalizing held with
  | done result => exact h.1
  | call r next ih => exact h.elim
  | acquire key next ih => exact h.elim
  | release key next ih => exact ⟨h.1, ih h.2⟩

theorem Quits.bind (h : p.Quits e base held) (f : α → Plan β) :
    (p.bind f).Quits e base held := by
  induction p generalizing held with
  | done result =>
      obtain ⟨hheld, rfl⟩ := h
      exact ⟨hheld, rfl⟩
  | call r next ih => exact h.elim
  | acquire key next ih => exact h.elim
  | release key next ih => exact ⟨h.1, ih h.2⟩

theorem Quits.thenRelease {key : String} (h : p.Quits e (key :: base) held) :
    (p.thenRelease key).Quits e base held := by
  induction p generalizing held with
  | done result =>
      obtain ⟨rfl, hresult⟩ := h
      exact ⟨List.mem_cons_self, List.erase_cons_head .., hresult⟩
  | call r next ih => exact h.elim
  | acquire k next ih => exact h.elim
  | release k next ih => exact ⟨h.1, ih h.2⟩

/-- Whoever holds nothing and quits has ended. -/
theorem Quits.eq_done (h : p.Quits e base []) : p = .done (.error e) := by
  cases p with
  | done result => rw [h.2]
  | call r next => exact h.elim
  | acquire key next => exact h.elim
  | release key next => exact absurd h.1 List.not_mem_nil

/-! ### Tidy plans -/

theorem tidy_pure (a : α) : (pure a : Plan α).Tidy rank held held := rfl

theorem tidy_fail (e : StorageError) : (fail e : Plan α).Tidy rank held held := rfl

theorem tidy_ofExcept (r : Except StorageError α) : (ofExcept r).Tidy rank held held := rfl

theorem tidy_ask (r : Request) : (ask r).Tidy rank held held :=
  ⟨fun _ => rfl, fun _ => ⟨rfl, rfl⟩⟩

/-- A plan that goes on with the result of another. -/
theorem tidy_bind (hp : p.Tidy rank base held) (hf : ∀ a, (f a).Tidy rank base base) :
    (p >>= f).Tidy rank base held := by
  show (p.bind f).Tidy rank base held
  induction p generalizing held with
  | done result =>
      obtain rfl : held = base := hp
      cases result with
      | ok a => exact hf a
      | error e => exact tidy_fail e
  | call r next ih => exact ⟨fun a => ih _ (hp.1 a), fun e => (hp.2 e).bind f⟩
  | acquire key next ih => exact ⟨hp.1, ih hp.2⟩
  | release key next ih => exact ⟨hp.1, ih hp.2⟩

/-- What is done under a lock is done while holding it, and the lock is given back. -/
theorem tidy_locked {key : String} (hkey : ∀ k ∈ held, rank k < rank key)
    (hp : p.Tidy rank (key :: held) (key :: held)) : (p.locked key).Tidy rank held held := by
  have hrelease : ∀ (p : Plan α) (now : List String), p.Tidy rank (key :: held) now →
      (p.thenRelease key).Tidy rank held now := by
    intro p
    induction p with
    | done result =>
        rintro now rfl
        exact ⟨List.mem_cons_self, List.erase_cons_head ..⟩
    | call r next ih =>
        exact fun now h => ⟨fun a => ih _ now (h.1 a), fun e => (h.2 e).thenRelease⟩
    | acquire k next ih => exact fun now h => ⟨h.1, ih _ h.2⟩
    | release k next ih => exact fun now h => ⟨h.1, ih _ h.2⟩
  exact ⟨hkey, hrelease p _ hp⟩

/-- A look-up takes no lock and ends with the first error of the store. -/
theorem Looks.tidy (h : p.Looks) : p.Tidy rank held held := by
  induction p with
  | done result => rfl
  | call r next ih =>
      refine ⟨fun a => ih _ (h.2.1 _), fun e => ?_⟩
      rw [h.2.2 e]
      exact ⟨rfl, rfl⟩
  | acquire key next ih => exact h.elim
  | release key next ih => exact h.elim

/-- A tidy plan asks for no lock that it holds. -/
theorem Tidy.fresh {key : String} {next : Plan α}
    (h : (acquire key next).Tidy rank base held) : key ∉ held :=
  fun hkey => Nat.lt_irrefl _ (h.1 key hkey)

end IdentityStore.Plan
