/-
What workers do to a shared store, and what they owe each other.

The requests of a crew come one after the other, whoever makes them.  Each is recorded with
its reply and with the store before and after it, so that a run leaves a log, and what one
worker has learnt is its own part of the log.

A worker that holds a lock relies on something staying as it is until the lock is given
back.  `Abides` follows a plan through every store that it may come upon: at each request
the store may have become any that the held locks allow, and the request has to be one that
the worker is allowed.  If no allowed request disturbs what others rely on, then a crew whose
plans abide stays one, so that every request in its log was allowed when it was made.
-/
import IdentityStore.Proofs.Plan.Cut
import IdentityStore.Proofs.Plan.Exclusion

namespace IdentityStore

/-- A request with its reply, and the store before and after it. -/
structure Exchange (σ : Type) where
  request : Request
  reply : Except StoreError request.Reply
  before : σ
  after : σ

namespace Exchange

variable {σ : Type}

/-- The store gave the answer, or the call failed without being run. -/
def Answered (answer : Plan.Answering σ) (x : Exchange σ) : Prop :=
  (x.reply, x.after) = answer x.before x.request ∨
    (x.reply.isOk = false ∧ x.after = x.before)

/-- The exchange of a request and the store that it comes upon. -/
def of (answer : Plan.Answering σ) (s : σ) (r : Request) : Exchange σ :=
  ⟨r, (answer s r).1, s, (answer s r).2⟩

/-- The exchange of a call that fails without being run. -/
def failed (e : StoreError) (s : σ) (r : Request) : Exchange σ := ⟨r, .error e, s, s⟩

/-- The exchange is of a request that succeeded, with the reply that is given. -/
def Succeeds (x : Exchange σ) (r : Request) (a : r.Reply) : Prop :=
  ∃ before after, x = ⟨r, .ok a, before, after⟩

theorem Succeeds.request {x : Exchange σ} {r : Request} {a : r.Reply} (h : x.Succeeds r a) :
    x.request = r := by
  obtain ⟨_, _, rfl⟩ := h
  rfl

theorem succeeds_of {answer : Plan.Answering σ} {s : σ} {r : Request} {a : r.Reply}
    (h : (answer s r).1 = .ok a) : (of answer s r).Succeeds r a :=
  ⟨s, (answer s r).2, by rw [of, h]⟩

/-- A reply that is not an error makes a success. -/
theorem exists_succeeds {x : Exchange σ} {r : Request} (hr : x.request = r)
    (hok : x.reply.isOk = true) : ∃ a, x.Succeeds r a := by
  obtain ⟨request, reply, before, after⟩ := x
  subst hr
  cases reply with
  | error e => cases hok
  | ok a => exact ⟨a, before, after, rfl⟩

end Exchange

/-! ### Logs -/

/-- What the workers of a crew have exchanged with the store, the earliest first. -/
abbrev Log (σ : Type) := List (Nat × Exchange σ)

namespace Log

variable {σ : Type} {i j : Nat} {x : Exchange σ} {s s' : σ} {log l₁ l₂ : Log σ}

/-- What one worker has exchanged with the store. -/
def own (i : Nat) (log : Log σ) : List (Exchange σ) :=
  log.filterMap fun entry => if entry.1 = i then some entry.2 else none

theorem own_append (i : Nat) (l₁ l₂ : Log σ) : own i (l₁ ++ l₂) = own i l₁ ++ own i l₂ :=
  List.filterMap_append

theorem own_singleton_self (i : Nat) (x : Exchange σ) : own i [(i, x)] = [x] := by
  simp [own]

theorem own_singleton_ne (h : i ≠ j) (x : Exchange σ) : own j [(i, x)] = [] := by
  simp [own, h]

theorem mem_own : x ∈ own i log ↔ (i, x) ∈ log := by
  simp [own, List.mem_filterMap]

/-- Where one worker's part of a log divides, the log does. -/
theorem own_eq_append_cons {past later : List (Exchange σ)}
    (h : own i log = past ++ x :: later) :
    ∃ l₁ l₂, log = l₁ ++ (i, x) :: l₂ ∧ own i l₁ = past ∧ own i l₂ = later := by
  obtain ⟨l₁, rest, rfl, hpast, hrest⟩ := List.filterMap_eq_append_iff.mp h
  obtain ⟨skipped, entry, l₂, rfl, hskipped, hentry, hlater⟩ :=
    List.filterMap_eq_cons_iff.mp hrest
  have hentry' : entry = (i, x) := by
    split_ifs at hentry with hi
    cases hentry
    exact Prod.ext hi rfl
  refine ⟨l₁ ++ skipped, l₂, ?_, ?_, hlater⟩
  · rw [hentry', List.append_assoc]
  · rw [own_append, show own i l₁ = past from hpast]
    have hnone : own i skipped = [] := List.filterMap_eq_nil_iff.mpr hskipped
    rw [hnone, List.append_nil]

/-- The stores of a log follow each other from one store to another. -/
def Passes : σ → Log σ → σ → Prop
  | s, [], s' => s = s'
  | s, (_, x) :: rest, s' => x.before = s ∧ Passes x.after rest s'

theorem passes_append {s'' : σ} : ∀ {s : σ} {l₁ : Log σ}, Passes s l₁ s' → Passes s' l₂ s'' →
    Passes s (l₁ ++ l₂) s''
  | _, [], rfl, h => h
  | _, _ :: _, ⟨hbefore, hrest⟩, h => ⟨hbefore, passes_append hrest h⟩

/-- A log leads from one store to one other. -/
theorem Passes.unique {s'' : σ} : ∀ {s : σ} {log : Log σ}, Passes s log s' → Passes s log s'' →
    s' = s''
  | _, [], h, h' => Eq.trans (Eq.symm h) h'
  | _, _ :: _, ⟨_, h⟩, ⟨_, h'⟩ => Passes.unique h h'

/-- A log that divides passes through the store in the middle. -/
theorem Passes.split : ∀ {s : σ} {l₁ : Log σ}, Passes s (l₁ ++ l₂) s' →
    ∃ middle, Passes s l₁ middle ∧ Passes middle l₂ s'
  | s, [], h => ⟨s, rfl, h⟩
  | _, _ :: _, ⟨hbefore, hrest⟩ =>
    let ⟨middle, h₁, h₂⟩ := Passes.split hrest
    ⟨middle, ⟨hbefore, h₁⟩, h₂⟩

/-- **What comes to hold is brought about by an exchange**, and until then it holds of no
store. -/
theorem Passes.first {P : σ → Prop} (hs' : P s') : ∀ {s : σ} {log : Log σ}, Passes s log s' →
    ¬ P s → ∃ l₁ i x l₂, log = l₁ ++ (i, x) :: l₂ ∧ ¬ P x.before ∧ P x.after ∧
      ∀ entry ∈ l₁, ¬ P entry.2.before
  | _, [], rfl, hs => absurd hs' hs
  | _, (i, x) :: rest, ⟨hbefore, hrest⟩, hs => by
    subst hbefore
    by_cases hafter : P x.after
    · exact ⟨[], i, x, rest, rfl, hs, hafter, fun _ h => nomatch h⟩
    · obtain ⟨l₁, j, y, l₂, rfl, hy, hy', hl₁⟩ := Passes.first hs' hrest hafter
      refine ⟨(i, x) :: l₁, j, y, l₂, rfl, hy, hy', fun entry hentry => ?_⟩
      rcases List.mem_cons.mp hentry with rfl | hentry
      · exact hs
      · exact hl₁ entry hentry

/-- What every exchange of a log leaves true holds of all its stores. -/
theorem Passes.forall {P : σ → Prop} : ∀ {s : σ} {log : Log σ}, Passes s log s' →
    (∀ entry ∈ log, P entry.2.before → P entry.2.after) → P s →
    P s' ∧ ∀ entry ∈ log, P entry.2.before
  | _, [], rfl, _, hs => ⟨hs, fun _ h => nomatch h⟩
  | _, (i, x) :: rest, ⟨hbefore, hrest⟩, hstep, hs => by
    subst hbefore
    have hx : P x.after := hstep (i, x) (by simp) hs
    obtain ⟨hs', hall⟩ := Passes.forall hrest (fun entry h => hstep entry (by simp [h])) hx
    refine ⟨hs', fun entry hentry => ?_⟩
    rcases List.mem_cons.mp hentry with rfl | hentry
    · exact hs
    · exact hall entry hentry

end Log

/-! ### Plans -/

/-- How a store that is shared answers, and what stays as it is for whoever holds some
locks. -/
structure Accord (σ : Type) where
  answer : Plan.Answering σ
  keeps : List String → σ → σ → Prop
  refl : ∀ held s, keeps held s s
  trans : ∀ {held s s' s''}, keeps held s s' → keeps held s' s'' → keeps held s s''

/-- What may be requested by whoever holds some locks and has had some exchanges, of the
store that it comes upon. -/
abbrev Allowance (σ : Type) := List String → List (Exchange σ) → σ → Request → Prop

namespace Plan

variable {α β σ : Type} {accord : Accord σ} {allow : Allowance σ} {base held : List String}
  {past : List (Exchange σ)} {s : σ}

/-- From some held locks, some exchanges and a store on, the plan requests what is allowed
and asks for no lock that it holds, whatever happens to the store meanwhile that the locks
do not keep from it.  It ends with the locks `base`, and what it ends with has the property
`Q`. -/
def Abides (accord : Accord σ) (allow : Allowance σ) (Q : α → List (Exchange σ) → σ → Prop)
    (base : List String) : Plan α → List String → List (Exchange σ) → σ → Prop
  | .done result, held, past, s =>
    held = base ∧ ∀ a, result = .ok a → ∀ s', accord.keeps held s s' → Q a past s'
  | .call r next, held, past, s => ∀ s', accord.keeps held s s' →
    allow held past s' r ∧
      Abides accord allow Q base (next (accord.answer s' r).1) held
        (past ++ [.of accord.answer s' r]) (accord.answer s' r).2 ∧
      ∀ e, Abides accord allow Q base (next (.error e)) held (past ++ [.failed e s' r]) s'
  | .acquire key next, held, past, s => key ∉ held ∧
    ∀ s', accord.keeps held s s' → Abides accord allow Q base next (key :: held) past s'
  | .release key next, held, past, s =>
    ∀ s', accord.keeps held s s' → Abides accord allow Q base next (held.erase key) past s'

variable {Q : α → List (Exchange σ) → σ → Prop} {R : β → List (Exchange σ) → σ → Prop}

/-- A plan that abides does so whatever happens to the store first. -/
theorem Abides.after {p : Plan α} (h : p.Abides accord allow Q base held past s) {s' : σ}
    (hs' : accord.keeps held s s') : p.Abides accord allow Q base held past s' := by
  cases p with
  | done result => exact ⟨h.1, fun a ha s'' hs'' => h.2 a ha s'' (accord.trans hs' hs'')⟩
  | call r next => exact fun s'' hs'' => h s'' (accord.trans hs' hs'')
  | acquire key next => exact ⟨h.1, fun s'' hs'' => h.2 s'' (accord.trans hs' hs'')⟩
  | release key next => exact fun s'' hs'' => h s'' (accord.trans hs' hs'')

/-- More may be allowed, and less promised in the end. -/
theorem Abides.mono {allow' : Allowance σ} {Q' : α → List (Exchange σ) → σ → Prop} {p : Plan α}
    (h : p.Abides accord allow Q base held past s)
    (hallow : ∀ held past s r, allow held past s r → allow' held past s r)
    (hQ : ∀ a past s, Q a past s → Q' a past s) :
    p.Abides accord allow' Q' base held past s := by
  induction p generalizing held past s with
  | done result => exact ⟨h.1, fun a ha s' hs' => hQ _ _ _ (h.2 a ha s' hs')⟩
  | call r next ih =>
      intro s' hs'
      obtain ⟨hr, hanswer, hfail⟩ := h s' hs'
      exact ⟨hallow _ _ _ _ hr, ih _ hanswer, fun e => ih _ (hfail e)⟩
  | acquire key next ih => exact ⟨h.1, fun s' hs' => ih (h.2 s' hs')⟩
  | release key next ih => exact fun s' hs' => ih (h s' hs')

/-- What a plan requests, and what it comes to, may be shown in two parts. -/
theorem Abides.and {allow' : Allowance σ} {Q' : α → List (Exchange σ) → σ → Prop} {p : Plan α}
    (h : p.Abides accord allow Q base held past s)
    (h' : p.Abides accord allow' Q' base held past s) :
    p.Abides accord (fun held past s r => allow held past s r ∧ allow' held past s r)
      (fun a past s => Q a past s ∧ Q' a past s) base held past s := by
  induction p generalizing held past s with
  | done result => exact ⟨h.1, fun a ha s' hs' => ⟨h.2 a ha s' hs', h'.2 a ha s' hs'⟩⟩
  | call r next ih =>
      intro s' hs'
      obtain ⟨hr, hanswer, hfail⟩ := h s' hs'
      obtain ⟨hr', hanswer', hfail'⟩ := h' s' hs'
      exact ⟨⟨hr, hr'⟩, ih _ hanswer hanswer', fun e => ih _ (hfail e) (hfail' e)⟩
  | acquire key next ih => exact ⟨h.1, fun s' hs' => ih (h.2 s' hs') (h'.2 s' hs')⟩
  | release key next ih => exact fun s' hs' => ih (h s' hs') (h' s' hs')

/-- A plan that abides among those who keep little for it abides among those who keep more. -/
theorem Abides.among {kinder : Accord σ} {p : Plan α} (h : p.Abides accord allow Q base held past s)
    (hanswer : kinder.answer = accord.answer)
    (hkeeps : ∀ held s s', kinder.keeps held s s' → accord.keeps held s s') :
    p.Abides kinder allow Q base held past s := by
  obtain ⟨answer, keeps, refl, trans⟩ := kinder
  dsimp only at hanswer hkeeps
  subst hanswer
  induction p generalizing held past s with
  | done result => exact ⟨h.1, fun a ha s' hs' => h.2 a ha s' (hkeeps _ _ _ hs')⟩
  | call r next ih =>
      intro s' hs'
      obtain ⟨hr, hanswer, hfail⟩ := h s' (hkeeps _ _ _ hs')
      exact ⟨hr, ih _ hanswer, fun e => ih _ (hfail e)⟩
  | acquire key next ih => exact ⟨h.1, fun s' hs' => ih (h.2 s' (hkeeps _ _ _ hs'))⟩
  | release key next ih => exact fun s' hs' => ih (h s' (hkeeps _ _ _ hs'))

theorem abides_pure {a : α} (h : ∀ s', accord.keeps held s s' → Q a past s') :
    (pure a : Plan α).Abides accord allow Q held held past s := by
  refine ⟨rfl, fun b hb s' hs' => ?_⟩
  cases hb
  exact h s' hs'

theorem abides_fail (e : StorageError) :
    (fail e : Plan α).Abides accord allow Q held held past s := ⟨rfl, fun _ h => nomatch h⟩

theorem abides_ofExcept {r : Except StorageError α}
    (h : ∀ a, r = .ok a → ∀ s', accord.keeps held s s' → Q a past s') :
    (ofExcept r).Abides accord allow Q held held past s := ⟨rfl, h⟩

/-- A single request. -/
theorem abides_ask {r : Request} {Q : r.Reply → List (Exchange σ) → σ → Prop}
    (hallow : ∀ s', accord.keeps held s s' → allow held past s' r)
    (h : ∀ s', accord.keeps held s s' → ∀ a, (accord.answer s' r).1 = .ok a →
      ∀ s'', accord.keeps held (accord.answer s' r).2 s'' →
        Q a (past ++ [.of accord.answer s' r]) s'') :
    (ask r).Abides accord allow Q held held past s := by
  refine fun s' hs' => ⟨hallow s' hs', ⟨rfl, fun a ha => ?_⟩, fun e => ⟨rfl, fun _ h => nomatch h⟩⟩
  rcases hreply : (accord.answer s' r).1 with e | b
  · rw [hreply] at ha
    cases ha
  · rw [hreply] at ha
    cases ha
    exact h s' hs' _ hreply

/-- A plan that goes on with the result of another. -/
theorem abides_bind {p : Plan α} {f : α → Plan β}
    (hp : p.Abides accord allow Q base held past s)
    (hf : ∀ a past' s', Q a past' s' → (f a).Abides accord allow R base base past' s') :
    (p >>= f).Abides accord allow R base held past s := by
  show (p.bind f).Abides accord allow R base held past s
  induction p generalizing held past s with
  | done result =>
      obtain ⟨rfl, hQ⟩ := hp
      cases result with
      | ok a => exact hf a past s (hQ a rfl s (accord.refl _ _))
      | error e => exact abides_fail e
  | call r next ih =>
      intro s' hs'
      obtain ⟨hallow, hanswer, hfail⟩ := hp s' hs'
      exact ⟨hallow, ih _ hanswer, fun e => ih _ (hfail e)⟩
  | acquire key next ih => exact ⟨hp.1, fun s' hs' => ih (hp.2 s' hs')⟩
  | release key next ih => exact fun s' hs' => ih (hp s' hs')

/-- What is done under a lock may rely on the lock. -/
theorem abides_locked {P : α → List (Exchange σ) → σ → Prop} {key : String} {p : Plan α}
    (hkey : key ∉ held)
    (hp : ∀ s', accord.keeps held s s' →
      p.Abides accord allow P (key :: held) (key :: held) past s')
    (hQ : ∀ a past' s' s'', P a past' s' → accord.keeps held s' s'' → Q a past' s'') :
    (p.locked key).Abides accord allow Q held held past s := by
  have hrelease : ∀ (p : Plan α) (now : List String) (past : List (Exchange σ)) (s : σ),
      p.Abides accord allow P (key :: held) now past s →
      (p.thenRelease key).Abides accord allow Q held now past s := by
    intro p
    induction p with
    | done result =>
        rintro now past s ⟨rfl, hresult⟩ s' hs'
        refine ⟨List.erase_cons_head .., fun a ha s'' hs'' => ?_⟩
        rw [List.erase_cons_head] at hs''
        exact hQ a past s' s'' (hresult a ha s' hs') hs''
    | call r next ih =>
        intro now past s h s' hs'
        obtain ⟨hallow, hanswer, hfail⟩ := h s' hs'
        exact ⟨hallow, ih _ _ _ _ hanswer, fun e => ih _ _ _ _ (hfail e)⟩
    | acquire k next ih =>
        exact fun now past s h => ⟨h.1, fun s' hs' => ih _ _ _ (h.2 s' hs')⟩
    | release k next ih => exact fun now past s h s' hs' => ih _ _ _ (h s' hs')
  exact ⟨hkey, fun s' hs' => hrelease p _ _ _ (hp s' hs')⟩

/-- A look-up abides where reading is allowed, and disturbs nothing that is relied on. -/
theorem Looks.abides {p : Plan α} (h : p.Looks)
    (hread : ∀ held past s r, r.isRead = true → allow held past s r)
    (hstore : ∀ s r, r.isRead = true → (accord.answer s r).2 = s)
    (held : List String) (past : List (Exchange σ)) (s : σ) :
    p.Abides accord allow (fun _ past' s' => past <+: past' ∧ accord.keeps held s s') held held
      past s := by
  have hfrom : ∀ (p : Plan α), p.Looks → ∀ past' s', past <+: past' → accord.keeps held s s' →
      p.Abides accord allow (fun _ past' s' => past <+: past' ∧ accord.keeps held s s') held held
        past' s' := by
    intro p
    induction p with
    | done result =>
        exact fun _ past' s' hpast hs' =>
          ⟨rfl, fun a _ s'' hs'' => ⟨hpast, accord.trans hs' hs''⟩⟩
    | call r next ih =>
        intro h past' s' hpast hs' s'' hs''
        refine ⟨hread _ _ _ r h.1, ?_, fun e => ?_⟩
        · rw [hstore s'' r h.1]
          exact ih _ (h.2.1 _) _ _ (hpast.trans (List.prefix_append ..)) (accord.trans hs' hs'')
        · exact ih _ (h.2.1 _) _ _ (hpast.trans (List.prefix_append ..)) (accord.trans hs' hs'')
    | acquire key next ih => exact fun h => h.elim
    | release key next ih => exact fun h => h.elim
  exact hfrom p h past s (List.prefix_refl _) (accord.refl held s)

end Plan

/-! ### Crews -/

namespace Crew

open Log (own Passes)

variable {α σ : Type} {accord : Accord σ} {allow : Nat → Allowance σ}
  {Q : Nat → α → List (Exchange σ) → σ → Prop} {c : Crew σ α} {s₀ : σ}

/-- What the worker at a place exchanges with a store when it takes a step. -/
def exchange? (answer : Plan.Answering σ) (c : Crew σ α) (i : Nat) : Option (Nat × Exchange σ) :=
  match c.workers[i]? with
  | none => none
  | some w =>
    match w.plan with
    | some (.call r _) => some (i, .of answer c.store r)
    | _ => none

/-- What is exchanged with the store at an event. -/
def exchangeAt? (answer : Plan.Answering σ) (c : Crew σ α) : Event → Option (Nat × Exchange σ)
  | .step i => c.exchange? answer i
  | .fail i e => c.exchange? (failing e) i
  | .dismiss _ => none

/-- What is exchanged with the store at some events. -/
def log (answer : Plan.Answering σ) : Crew σ α → List Event → Log σ
  | _, [] => []
  | c, event :: events =>
    (c.exchangeAt? answer event).toList ++ (c.advance answer event).log answer events

theorem log_append (answer : Plan.Answering σ) (c : Crew σ α) (events later : List Event) :
    c.log answer (events ++ later)
      = c.log answer events ++ (events.foldl (advance answer) c).log answer later := by
  induction events generalizing c with
  | nil => rfl
  | cons event events ih =>
      show (c.exchangeAt? answer event).toList
          ++ (c.advance answer event).log answer (events ++ later) = _
      rw [ih, ← List.append_assoc]
      rfl

variable {log : Log σ}

/-- The plans of all workers abide from where they are, and all that was requested was
allowed when it was requested. -/
structure Abiding (accord : Accord σ) (allow : Nat → Allowance σ)
    (Q : Nat → α → List (Exchange σ) → σ → Prop) (s₀ : σ) (c : Crew σ α) (log : Log σ) :
    Prop where
  exclusive : c.Exclusive
  plans : ∀ (i : Nat) (w : Worker α) (p : Plan α), c.workers[i]? = some w → w.plan = some p →
    p.Abides accord (allow i) (Q i) [] w.held (own i log) c.store
  passes : Passes s₀ log c.store
  answered : ∀ entry ∈ log, entry.2.Answered accord.answer
  allowed : ∀ l₁ i x l₂, log = l₁ ++ (i, x) :: l₂ →
    ∃ held, allow i held (own i l₁) x.before x.request

/-- Nothing that a worker may request disturbs what others rely on. -/
def Considerate (accord : Accord σ) (allow : Nat → Allowance σ) : Prop :=
  ∀ i held past s r, allow i held past s r → ∀ others : List String, (∀ key ∈ others, key ∉ held) →
    accord.keeps others s (accord.answer s r).2

theorem abiding_start (store : σ) {plans : List (Plan α)}
    (h : ∀ (i : Nat) (p : Plan α), plans[i]? = some p →
      p.Abides accord (allow i) (Q i) [] [] [] store) :
    Abiding accord allow Q store (start store plans) [] where
  exclusive := exclusive_start store plans
  plans := by
    intro i w p hw hp
    have hget : (plans.map fun p => ({ plan := some p } : Worker α))[i]? = some w := hw
    rw [List.getElem?_map, Option.map_eq_some_iff] at hget
    obtain ⟨q, hq, rfl⟩ := hget
    cases hp
    exact h i p hq
  passes := rfl
  answered := fun _ h => nomatch h
  allowed := by
    intro l₁ i x l₂ hlog
    cases l₁ <;> cases hlog

/-- A worker makes a request that it is allowed, and goes on. -/
theorem Abiding.exchange (h : Abiding accord allow Q s₀ c log)
    (hconsiderate : Considerate accord allow) {i : Nat} {w : Worker α} {x : Exchange σ}
    {q : Plan α} (hw : c.workers[i]? = some w) (hbefore : x.before = c.store)
    (hanswered : x.Answered accord.answer)
    (hallow : allow i w.held (own i log) x.before x.request)
    (hq : q.Abides accord (allow i) (Q i) [] w.held (own i log ++ [x]) x.after) :
    Abiding accord allow Q s₀
      { c with store := x.after, workers := c.workers.set i { w with plan := some q } }
      (log ++ [(i, x)]) where
  exclusive := h.exclusive.set _ (h.exclusive.owner i w hw) (h.exclusive.once i w hw)
    fun _ _ _ hj => hj
  plans := by
    intro j v p hv hp
    rcases workers_set hv with ⟨rfl, rfl⟩ | ⟨hne, hv⟩
    · cases hp
      rw [Log.own_append, Log.own_singleton_self]
      exact hq
    · rw [Log.own_append, Log.own_singleton_ne hne.symm, List.append_nil]
      refine (h.plans j v p hv hp).after ?_
      rcases hanswered with hreal | ⟨-, hsame⟩
      · have hafter : x.after = (accord.answer x.before x.request).2 := congrArg Prod.snd hreal
        show accord.keeps v.held c.store x.after
        rw [hafter, ← hbefore]
        refine hconsiderate i w.held _ _ _ hallow v.held fun key hkey hkey' => hne ?_
        exact h.exclusive.eq_of_held hv hw hkey hkey'
      · show accord.keeps v.held c.store x.after
        rw [hsame, hbefore]
        exact accord.refl _ _
  passes := Log.passes_append h.passes ⟨hbefore, rfl⟩
  answered := by
    intro entry hentry
    rcases List.mem_append.mp hentry with hentry | hentry
    · exact h.answered entry hentry
    · rw [List.mem_singleton.mp hentry]
      exact hanswered
  allowed := by
    intro l₁ j y l₂ hlog
    rcases List.eq_nil_or_concat l₂ with rfl | ⟨l₂, last, rfl⟩
    · obtain ⟨rfl, hlast⟩ := List.append_inj' hlog rfl
      cases hlast
      exact ⟨w.held, hallow⟩
    · rw [List.concat_eq_append, ← List.cons_append, ← List.append_assoc] at hlog
      obtain ⟨hlog, -⟩ := List.append_inj' hlog rfl
      exact h.allowed l₁ j y l₂ hlog

/-- A worker goes on without a request, and the locks change hands as they should. -/
theorem Abiding.set (h : Abiding accord allow Q s₀ c log) {locks : LockTable Nat} {i : Nat}
    {w : Worker α}
    (hexclusive : Exclusive { c with locks, workers := c.workers.set i w })
    (hw : ∀ p, w.plan = some p → p.Abides accord (allow i) (Q i) [] w.held (own i log) c.store) :
    Abiding accord allow Q s₀ { c with locks, workers := c.workers.set i w } log where
  exclusive := hexclusive
  plans := by
    intro j v p hv hp
    rcases workers_set hv with ⟨rfl, rfl⟩ | ⟨-, hv⟩
    · exact hw p hp
    · exact h.plans j v p hv hp
  passes := h.passes
  answered := h.answered
  allowed := h.allowed

/-- A step against the store, or against one that fails. -/
theorem Abiding.step (h : Abiding accord allow Q s₀ c log)
    (hconsiderate : Considerate accord allow) {answer : Plan.Answering σ}
    (hanswer : answer = accord.answer ∨ ∃ e, answer = failing e) (i : Nat) :
    Abiding accord allow Q s₀ (c.step answer i) (log ++ (c.exchange? answer i).toList) := by
  have hexclusive : (c.step answer i).Exclusive := by
    refine h.exclusive.step answer fun w key next hw hp => ?_
    exact (h.plans i w _ hw hp).1
  unfold Crew.step at hexclusive ⊢
  unfold exchange?
  rcases hworker : c.workers[i]? with _ | w
  · exact (List.append_nil log).symm ▸ h
  rw [hworker] at hexclusive
  dsimp only at hexclusive ⊢
  rcases hplan : w.plan with _ | p
  · exact (List.append_nil log).symm ▸ h
  rw [hplan] at hexclusive
  have hp := h.plans i w p hworker hplan
  cases p with
  | done result => exact (List.append_nil log).symm ▸ h
  | call r next =>
      obtain ⟨hallow, hreal, hfail⟩ := hp c.store (accord.refl _ _)
      rcases hanswer with rfl | ⟨e, rfl⟩
      · exact h.exchange hconsiderate (x := .of accord.answer c.store r) hworker rfl (.inl rfl)
          hallow hreal
      · exact h.exchange hconsiderate (x := .failed e c.store r) hworker rfl (.inr ⟨rfl, rfl⟩)
          hallow (hfail e)
  | acquire key next =>
      dsimp only at hexclusive ⊢
      rw [Option.toList_none, List.append_nil]
      refine h.set hexclusive fun q hq => ?_
      split_ifs at hq ⊢
      all_goals
        cases hq
        first
          | exact hp.2 _ (accord.refl _ _)
          | exact hp
  | release key next =>
      dsimp only at hexclusive ⊢
      rw [Option.toList_none, List.append_nil]
      refine h.set hexclusive fun q hq => ?_
      cases hq
      exact hp _ (accord.refl _ _)

theorem Abiding.dismiss (h : Abiding accord allow Q s₀ c log) (i : Nat) :
    Abiding accord allow Q s₀ (c.dismiss i) log := by
  have hexclusive := h.exclusive.dismiss i
  unfold Crew.dismiss at hexclusive ⊢
  rcases hworker : c.workers[i]? with _ | w
  · exact h
  · rw [hworker] at hexclusive
    exact h.set hexclusive fun p hp => nomatch hp

theorem Abiding.advance (h : Abiding accord allow Q s₀ c log)
    (hconsiderate : Considerate accord allow) (event : Event) :
    Abiding accord allow Q s₀ (c.advance accord.answer event)
      (log ++ (c.exchangeAt? accord.answer event).toList) := by
  cases event with
  | step i => exact h.step hconsiderate (.inl rfl) i
  | fail i e => exact h.step hconsiderate (.inr ⟨e, rfl⟩) i
  | dismiss i => exact (List.append_nil log).symm ▸ h.dismiss i

/-- **A crew whose plans abide goes on abiding**, in whatever order its workers take their
steps, and wherever they are cut short. -/
theorem Abiding.events (h : Abiding accord allow Q s₀ c log)
    (hconsiderate : Considerate accord allow) (events : List Event) :
    Abiding accord allow Q s₀ (events.foldl (Crew.advance accord.answer) c)
      (log ++ c.log accord.answer events) := by
  induction events generalizing c log with
  | nil => exact (List.append_nil log).symm ▸ h
  | cons event events ih =>
      have hrest := ih (h.advance hconsiderate event)
      rw [List.append_assoc] at hrest
      exact hrest

/-- What a worker that is done has come to. -/
theorem Abiding.result (h : Abiding accord allow Q s₀ c log) {i : Nat} {w : Worker α} {a : α}
    (hw : c.workers[i]? = some w) (hresult : w.result? = some (.ok a)) :
    Q i a (own i log) c.store := by
  unfold Worker.result? at hresult
  split at hresult
  · rename_i result hplan
    cases hresult
    exact (h.plans i w _ hw hplan).2 a rfl _ (accord.refl _ _)
  · cases hresult

end Crew

end IdentityStore
