/-
The changes of a list, in the order in which they were made.

Whoever writes a list holds its lock from reading it to writing it, so that the list that is
written is the change of one operation made to what the list held just before.  The ledger
of a list is read off the log of a run: one entry for each write that succeeded, and nothing
for anything else.  What a list holds is what its ledger comes to.
-/
import IdentityStore.Proofs.Keyed.SideBySide

namespace IdentityStore

/-- Holds for the requests that write a key if they succeed. -/
def Request.writes (key : String) : Request → Bool
  | .set k _ | .setList k _ => k = key
  | .delete ks => key ∈ ks
  | _ => false

theorem Request.writes_of_isRead {key : String} {r : Request} (h : r.isRead = true) :
    r.writes key = false := by
  cases r with
  | set key value => cases h
  | delete ks => cases h
  | setList key entries => cases h
  | _ => rfl

namespace Keyed

open IdentityStore.Membership (Edit names)

/-- What may happen to a list: its members are changed, or it goes with its realm. -/
inductive Change where
  | rewrite (edit : Edit)
  | clear
  deriving DecidableEq

namespace Change

/-- What a list holds after a change; what is no list of members stays as it is until it
goes. -/
def apply : Change → Option (List Member) → Option (List Member)
  | .rewrite edit, ms => ms.map edit.apply
  | .clear, _ => some []

/-- What a list holds after some changes. -/
def applyAll (changes : List Change) (ms : Option (List Member)) : Option (List Member) :=
  changes.foldl (fun ms change => change.apply ms) ms

/-- Holds for the changes that remove a member or put another in its place. -/
def displaces (m : Member) : Change → Bool
  | .rewrite (.upsert other) => other.name = m.name ∧ other ≠ m
  | .rewrite (.without name) => name = m.name
  | .rewrite (.reset members) => m ∉ members
  | .clear => true

theorem mem_upsert_of_mem {m other : Member} {ms : List Member} (h : m ∈ ms)
    (hother : other.name = m.name → other = m) : m ∈ Membership.upsert other ms := by
  induction ms with
  | nil => cases h
  | cons a rest ih =>
      rw [Membership.upsert]
      split_ifs with hname
      · rcases List.mem_cons.mp h with rfl | h
        · exact hother hname.symm ▸ List.mem_cons_self
        · exact List.mem_cons_of_mem _ h
      · rcases List.mem_cons.mp h with rfl | h
        · exact List.mem_cons_self
        · exact List.mem_cons_of_mem _ (ih h)

theorem mem_upsert_self (m : Member) (ms : List Member) : m ∈ Membership.upsert m ms := by
  induction ms with
  | nil => exact List.mem_cons_self
  | cons a rest ih =>
      rw [Membership.upsert]
      split_ifs
      · exact List.mem_cons_self
      · exact List.mem_cons_of_mem _ ih

/-- A member stays unless a change displaces it. -/
theorem mem_apply {change : Change} {m : Member} {ms ms' : List Member}
    (hms : change.apply (some ms) = some ms') (h : m ∈ ms) (hstays : change.displaces m = false) :
    m ∈ ms' := by
  cases change with
  | clear => cases hstays
  | rewrite edit =>
      cases hms
      cases edit with
      | upsert other =>
          refine mem_upsert_of_mem h fun hname => ?_
          by_contra hne
          simp [displaces, hname, hne] at hstays
      | without name =>
          refine Membership.mem_without.mpr ⟨h, fun hname => ?_⟩
          simp [displaces, hname] at hstays
      | reset members =>
          by_contra hm
          simp [displaces] at hstays
          exact hm hstays

/-- A member stays until a change displaces it. -/
theorem mem_applyAll {changes : List Change} {m : Member} {ms : List Member} (h : m ∈ ms)
    (hstays : ∀ change ∈ changes, change.displaces m = false) :
    ∃ ms', applyAll changes (some ms) = some ms' ∧ m ∈ ms' := by
  induction changes generalizing ms with
  | nil => exact ⟨ms, rfl, h⟩
  | cons change changes ih =>
      have hchange := hstays change (by simp)
      obtain ⟨ms', hms'⟩ : ∃ ms', change.apply (some ms) = some ms' := by
        cases change <;> exact ⟨_, rfl⟩
      rw [applyAll, List.foldl_cons, hms']
      exact ih (mem_apply hms' h hchange) fun c hc => hstays c (by simp [hc])

end Change

/-! ### One write -/

variable (keys : KeySpace)

/-- What deleting a realm removes. -/
abbrev realmKeys (r : String) : List String :=
  [keys.realm r, keys.members .client r, keys.members .user r]

/-- What an operation asks for when it writes the list of a kind and a realm, given what it
has exchanged before and the store that it comes upon. -/
inductive Asks (op : Operation) (past : List (Exchange MemoryStore)) (s : MemoryStore)
    (kind : Kind) (r : String) : Request → Change → Prop
  | rewrite {edit : Edit} {ms : List Member} (hedit : Edits keys past op kind r edit)
    (hms : contents s (keys.members kind r) = some ms) :
    Asks op past s kind r
      (.setList (keys.members kind r) (Membership.toEntries (edit.apply ms))) (.rewrite edit)
  | clear (hop : op = .deleteRealm r) : Asks op past s kind r (.delete (realmKeys keys r)) .clear

variable {keys} {order : ScanOrder} {s : MemoryStore} {op : Operation} {kind : Kind} {r : String}
  {held : List String} {past : List (Exchange MemoryStore)} {ops : List Operation}
  {events : List Crew.Event}

/-- Whatever writes a list is a change of it by the operation. -/
theorem asks_of_writes {request : Request} (h : Conduct keys op held past s request)
    (hwrites : request.writes (keys.members kind r) = true) :
    ∃ change, Asks keys op past s kind r request change := by
  cases h with
  | look h =>
      rw [Request.writes_of_isRead h] at hwrites
      cases hwrites
  | create hnamed h =>
      exact absurd (of_decide_eq_true hwrites) (Subject.key_ne_members hnamed kind r)
  | update h hfound =>
      obtain ⟨y, -, -, hnamed, -⟩ := hfound
      exact absurd (of_decide_eq_true hwrites) (Subject.key_ne_members hnamed kind r)
  | change hheld hms hedit =>
      obtain ⟨rfl, rfl⟩ := keys.members_inj (of_decide_eq_true hwrites)
      exact ⟨_, .rewrite hedit hms⟩
  | delete =>
      have hmem := List.mem_singleton.mp (of_decide_eq_true hwrites)
      exact absurd hmem.symm keys.record_ne_members
  | deleteRealm h hname =>
      have hmem := of_decide_eq_true hwrites
      simp only [List.mem_cons, List.not_mem_nil, or_false] at hmem
      rcases hmem with heq | heq | heq
      · exact absurd heq.symm (keys.realm_ne_members hname)
      · obtain ⟨-, rfl⟩ := keys.members_inj heq
        exact ⟨_, .clear h⟩
      · obtain ⟨-, rfl⟩ := keys.members_inj heq
        exact ⟨_, .clear h⟩

/-- A write that succeeds makes the change. -/
theorem contents_of_asks {change : Change} {request : Request} (hon : s.online = true)
    (h : Asks keys op past s kind r request change) :
    contents (s.answerIn order request).2 (keys.members kind r)
      = change.apply (contents s (keys.members kind r)) := by
  cases h with
  | @rewrite edit ms hedit hms =>
      rw [Membership.toEntries, MemoryStore.after_setList, if_pos hon, hms]
      show contents _ _ = some (edit.apply ms)
      refine contents_of_entry ?_ (hedit.nodup (nodup_contents hms))
      rw [MemoryStore.getElem?_put, if_pos rfl, Membership.toEntries]
  | clear hop =>
      rw [MemoryStore.after_delete, if_pos hon]
      show contents _ _ = some []
      refine contents_of_none ?_
      have hmem : keys.members kind r ∈ realmKeys keys r := by cases kind <;> simp
      rw [MemoryStore.getElem?_drop, if_pos hmem]

/-- A request that writes a list no more than that leaves it. -/
theorem entry_of_not_writes {request : Request} (h : Conduct keys op held past s request)
    {key : String} (hwrites : request.writes key = false) :
    (s.answerIn order request).2.entries[key]? = s.entries[key]? := by
  by_cases hon : s.online = true
  · cases h with
    | look h => rw [MemoryStore.answerIn_of_isRead h]
    | create | update =>
        rw [MemoryStore.after_set, if_pos hon, MemoryStore.getElem?_put,
          if_neg (of_decide_eq_false hwrites)]
    | change =>
        rw [Membership.toEntries, MemoryStore.after_setList, if_pos hon,
          MemoryStore.getElem?_put, if_neg (of_decide_eq_false hwrites)]
    | delete | deleteRealm =>
        rw [MemoryStore.after_delete, if_pos hon, MemoryStore.getElem?_drop,
          if_neg (of_decide_eq_false hwrites)]
  · rw [MemoryStore.answerIn_offline hon]

/-! ### The ledger of a list -/

variable (keys) in
/-- The changes that the writes of a list in a log were, the earliest first. -/
inductive Ledger (ops : List Operation) (kind : Kind) (r : String) :
    Log MemoryStore → List Change → Prop
  | begin : Ledger ops kind r [] []
  | skip {log : Log MemoryStore} {changes : List Change} {i : Nat} {x : Exchange MemoryStore}
    (h : Ledger ops kind r log changes)
    (hx : (x.request.writes (keys.members kind r) && x.reply.isOk) = false) :
    Ledger ops kind r (log ++ [(i, x)]) changes
  | enter {log : Log MemoryStore} {changes : List Change} {i : Nat} {x : Exchange MemoryStore}
    {op : Operation} {change : Change} (h : Ledger ops kind r log changes)
    (hop : ops[i]? = some op)
    (hx : Asks keys op (Log.own i log) x.before kind r x.request change)
    (hok : x.reply.isOk = true) : Ledger ops kind r (log ++ [(i, x)]) (changes ++ [change])

/-- One exchange enters one change, or none, and the list holds what the change makes of
it. -/
theorem Ledger.step {l : Log MemoryStore} {changes : List Change} {i : Nat}
    {x : Exchange MemoryStore} (h : Ledger keys ops kind r l changes) (hop : ops[i]? = some op)
    (hconduct : Conduct keys op held (Log.own i l) x.before x.request)
    (hanswered : x.Answered (MemoryStore.answerIn order)) :
    ∃ new, Ledger keys ops kind r (l ++ [(i, x)]) (changes ++ new) ∧
      contents x.after (keys.members kind r)
        = Change.applyAll new (contents x.before (keys.members kind r)) := by
  rcases answered_cases hanswered with ⟨hfailed, hsame⟩ | ⟨hok, hon, hrun⟩
  · refine ⟨[], ?_, by rw [hsame]; rfl⟩
    rw [List.append_nil]
    exact h.skip (by rw [hfailed, Bool.and_false])
  · by_cases hwrites : x.request.writes (keys.members kind r) = true
    · obtain ⟨change, hasks⟩ := asks_of_writes hconduct hwrites
      refine ⟨[change], h.enter hop hasks hok, ?_⟩
      rw [hrun, contents_of_asks hon hasks]
      rfl
    · have hwrites := Bool.eq_false_iff.mpr hwrites
      refine ⟨[], ?_, ?_⟩
      · rw [List.append_nil]
        exact h.skip (by rw [hwrites, Bool.false_and])
      · rw [hrun, contents_congr (entry_of_not_writes hconduct hwrites)]
        rfl

/-- A ledger goes on with the log, and the list with the ledger. -/
theorem Ledger.extend : ∀ (l : Log MemoryStore) {l₀ rest : Log MemoryStore}
    {changes : List Change} {s₁ s₂ : MemoryStore},
    logAfter keys order s ops events = l₀ ++ (l ++ rest) → Log.Passes s₁ l s₂ →
    Ledger keys ops kind r l₀ changes →
    ∃ new, Ledger keys ops kind r (l₀ ++ l) (changes ++ new) ∧
      contents s₂ (keys.members kind r)
        = Change.applyAll new (contents s₁ (keys.members kind r)) := by
  intro l
  induction l with
  | nil =>
      rintro l₀ rest changes s₁ s₂ - rfl h
      refine ⟨[], ?_, rfl⟩
      rw [List.append_nil, List.append_nil]
      exact h
  | cons entry l ih =>
      obtain ⟨i, x⟩ := entry
      rintro l₀ rest changes s₁ s₂ hlog ⟨rfl, hpasses⟩ h
      obtain ⟨op, hop, hanswered, held, hconduct⟩ := conduct_of_log hlog
      obtain ⟨first, hfirst, hafter⟩ := h.step hop hconduct hanswered
      have hlog' : logAfter keys order s ops events = (l₀ ++ [(i, x)]) ++ (l ++ rest) := by
        rw [hlog, List.append_assoc]
        rfl
      obtain ⟨new, hnew, hcontents⟩ := ih hlog' hpasses hfirst
      refine ⟨first ++ new, ?_, ?_⟩
      · rw [List.append_assoc, List.append_assoc] at hnew
        exact hnew
      · rw [hcontents, hafter, Change.applyAll, Change.applyAll, Change.applyAll,
          List.foldl_append]

variable (kind r) in
/-- Where a log divides, so does its ledger. -/
theorem Ledger.divide {l₁ l₂ : Log MemoryStore} {i : Nat} {x : Exchange MemoryStore}
    (hlog : logAfter keys order s ops events = l₁ ++ (i, x) :: l₂) :
    ∃ earlier, Ledger keys ops kind r l₁ earlier ∧
      Log.Passes x.after l₂ (crewAfter keys order s ops events).store := by
  have hpasses := (@abiding_after keys order s ops events).passes
  rw [hlog] at hpasses
  obtain ⟨middle, hfirst, rfl, hrest⟩ := hpasses.split
  have hbegin : Ledger keys ops kind r [] [] := .begin
  obtain ⟨earlier, hearlier, -⟩ := Ledger.extend l₁ hlog hfirst hbegin
  exact ⟨earlier, hearlier, hrest⟩

/-- A member that an operation has put in stays until a later change displaces it. -/
theorem listed_of_add {i : Nat} {w : Worker Answer} {n : String} {a : Answer}
    (hop : ops[i]? = some (.add kind r n))
    (hw : (crewAfter keys order s ops events).workers[i]? = some w)
    (hresult : w.result? = some (.ok a)) :
    ∃ m earlier later l₁ x l₂, logAfter keys order s ops events = l₁ ++ (i, x) :: l₂ ∧
      Asks keys (.add kind r n) (Log.own i l₁) x.before kind r x.request (.rewrite (.upsert m)) ∧
      x.reply.isOk = true ∧ Ledger keys ops kind r l₁ earlier ∧
      Ledger keys ops kind r (logAfter keys order s ops events)
        (earlier ++ .rewrite (.upsert m) :: later) ∧
      ((∃ ms, contents (crewAfter keys order s ops events).store (keys.members kind r) = some ms ∧
        m ∈ ms) ∨ ∃ change ∈ later, change.displaces m = true) := by
  obtain ⟨op, hop', hends⟩ := (abiding_after s ops events).result hw hresult
  cases hop.symm.trans hop'
  obtain ⟨x, hx, entries, hrequest, hok⟩ := hends kind r n rfl
  obtain ⟨l₁, l₂, hlog⟩ := List.append_of_mem (Log.mem_own.mp hx)
  obtain ⟨op, hop', hanswered, held, hconduct⟩ := conduct_of_log hlog
  cases hop.symm.trans hop'
  have hwrites : x.request.writes (keys.members kind r) = true := by
    rw [hrequest]
    exact decide_eq_true rfl
  obtain ⟨change, hasks⟩ := asks_of_writes hconduct hwrites
  -- all that an addition asks for is that a member is put in
  obtain ⟨m, ms, rfl, hms⟩ : ∃ m ms, change = .rewrite (.upsert m) ∧
      contents x.before (keys.members kind r) = some ms := by
    generalize x.request = request at hasks
    cases hasks with
    | rewrite hedit hms =>
        cases hedit with
        | add => exact ⟨_, _, rfl, hms⟩
    | clear h => cases h
  obtain ⟨earlier, hearlier, hpasses⟩ := Ledger.divide kind r hlog
  have hcommit := hearlier.enter hop hasks hok
  have hafter : contents x.after (keys.members kind r) = some (Membership.upsert m ms) := by
    rcases answered_cases hanswered with ⟨hfailed, -⟩ | ⟨-, hon, hrun⟩
    · rw [hok] at hfailed
      cases hfailed
    · rw [hrun, contents_of_asks hon hasks, hms]
      rfl
  have hlog' : logAfter keys order s ops events = (l₁ ++ [(i, x)]) ++ (l₂ ++ []) := by
    rw [hlog, List.append_assoc, List.append_nil]
    rfl
  obtain ⟨later, hlater, hstore⟩ := Ledger.extend l₂ hlog' hpasses hcommit
  refine ⟨m, earlier, later, l₁, x, l₂, hlog, hasks, hok, hearlier, ?_, ?_⟩
  · rw [List.append_nil] at hlog'
    rw [hlog']
    rw [List.append_assoc earlier] at hlater
    exact hlater
  · by_cases hdisplaced : ∃ change ∈ later, change.displaces m = true
    · exact .inr hdisplaced
    · have hstays : ∀ change ∈ later, change.displaces m = false := fun change hchange =>
        Bool.eq_false_iff.mpr fun h => hdisplaced ⟨change, hchange, h⟩
      obtain ⟨ms', hms', hm⟩ := Change.mem_applyAll (Change.mem_upsert_self m ms) hstays
      rw [hafter, hms'] at hstore
      exact .inl ⟨ms', hstore, hm⟩

/-- **No change of a list is lost**, from whatever store, in whatever order the calls of
operations come, and wherever calls fail or operations are given up.  Every write of a list
is the change of one operation made to what the list held just before; what the list holds is
what its ledger comes to; and a member that an operation has put in stays until a later
change displaces it. -/
theorem contents_eq_ledger (keys : KeySpace) (order : ScanOrder) (s : MemoryStore)
    (ops : List Operation) (events : List Crew.Event) (kind : Kind) (r : String) :
    let log := logAfter keys order s ops events
    let after := crewAfter keys order s ops events
    let key := keys.members kind r
    (∀ l₁ i x l₂, log = l₁ ++ (i, x) :: l₂ → x.request.writes key = true →
      ∃ op change, ops[i]? = some op ∧
        Asks keys op (Log.own i l₁) x.before kind r x.request change) ∧
    (∃ changes, Ledger keys ops kind r log changes ∧
      contents after.store key = Change.applyAll changes (contents s key)) ∧
    ∀ i w n a, ops[i]? = some (.add kind r n) → after.workers[i]? = some w →
      w.result? = some (.ok a) →
      ∃ m earlier later l₁ x l₂, log = l₁ ++ (i, x) :: l₂ ∧
        Asks keys (.add kind r n) (Log.own i l₁) x.before kind r x.request
          (.rewrite (.upsert m)) ∧ x.reply.isOk = true ∧
        Ledger keys ops kind r l₁ earlier ∧
        Ledger keys ops kind r log (earlier ++ .rewrite (.upsert m) :: later) ∧
        ((∃ ms, contents after.store key = some ms ∧ m ∈ ms) ∨
          ∃ change ∈ later, change.displaces m = true) := by
  refine ⟨fun l₁ i x l₂ hlog hwrites => ?_, ?_, fun i w n a => listed_of_add⟩
  · obtain ⟨op, hop, -, held, hconduct⟩ := conduct_of_log hlog
    obtain ⟨change, hasks⟩ := asks_of_writes hconduct hwrites
    exact ⟨op, change, hop, hasks⟩
  · have hlog : logAfter keys order s ops events
        = [] ++ (logAfter keys order s ops events ++ []) := (List.append_nil _).symm
    exact Ledger.extend _ hlog (abiding_after s ops events).passes .begin

end Keyed

end IdentityStore
