/-
Namespaces that share a store.

All that an operation requests lies under keys of its own namespace, and the one scan that
there is finds lists of this namespace and nothing else.  So repositories whose namespaces
share no key do not meet: none changes what the other holds, and none can tell what the other
holds from its answers.  In which order a scan lists its keys may well depend on what others
hold; that shows in no answer, since the lists can be read and a name leaves each of them.

Namespaces that differ may share keys all the same: the namespace `fe.realm_eu` is a key of
the namespace `fe`, and what is stored under the one can be deleted through the other.
-/
import IdentityStore.Proofs.Keyed.Cascade
import IdentityStore.Proofs.Keyed.Ledger
import IdentityStore.Proofs.Keyed.Revival
import IdentityStore.Proofs.Keyed.Within

namespace IdentityStore.Keyed

open MemoryStore (answerIn Alike)

variable {keys : KeySpace} {order order' : ScanOrder} {s s' : MemoryStore} {kind : Kind}
  {n key : String}

/-! ### Plans that keep to themselves -/

variable (keys) in
/-- All lists can be read. -/
def Readable (s : MemoryStore) : Prop := ∀ kind r, (contents s (keys.members kind r)).isSome = true

variable {α β : Type}

/-- Begun where all lists of the namespace can be read, the plan leaves the keys of others alone;
and begun where the keys of the namespace are the same, it comes to the same, in whatever order
keys are listed. -/
def Insular (keys : KeySpace) (p : Plan α) : Prop :=
  ∀ (order order' : ScanOrder) (s s' : MemoryStore), Readable keys s → Alike keys.Owns s s' →
    (∀ key, ¬ keys.Owns key → (p.run (answerIn order) s).2.entries[key]? = s.entries[key]?) ∧
    (p.run (answerIn order') s').1 = (p.run (answerIn order) s).1 ∧
    Alike keys.Owns (p.run (answerIn order) s).2 (p.run (answerIn order') s').2

theorem insular_of_within {p : Plan α} (h : p.Within keys.Owns) : Insular keys p :=
  fun _ _ s _ _ halike => ⟨fun _ hkey => h.run_entry s hkey, h.run_alike halike⟩

theorem Readable.congr (h : Readable keys s) (halike : Alike keys.Owns s s') : Readable keys s' := by
  intro kind r
  rw [contents_congr (halike.entry _ (keys.owns_members kind r))]
  exact h kind r

/-- What becomes of a key of the namespace can be told from the key. -/
theorem entryAfterDelete_congr (h : s'.entries[key]? = s.entries[key]?) :
    entryAfterDelete keys kind n s' key = entryAfterDelete keys kind n s key := by
  rw [entryAfterDelete, entryAfterDelete, entryWithout_congr h, h]

theorem entryAfterDelete_of_not_owns (h : ¬ keys.Owns key) :
    entryAfterDelete keys kind n s key = s.entries[key]? := by
  refine entryAfterDelete_of_other ?_ fun r => ?_
  · rintro rfl
    exact h (keys.owns_record kind n)
  · rintro rfl
    exact h (keys.owns_members kind r)

/-- A plan that goes on after a look-up. -/
theorem insular_look {p : Plan α} {f : α → Plan β} (hlooks : p.Looks) (hp : p.Within keys.Owns)
    (hf : ∀ a, Insular keys (f a)) : Insular keys (p >>= f) := by
  intro order order' s s' hs halike
  have hsame : (p.run (answerIn order') s').1 = (p.run (answerIn order) s).1 :=
    (hp.run_alike halike).1
  have hstore : ∀ (order : ScanOrder) (s : MemoryStore), (p.run (answerIn order) s).2 = s :=
    fun _ _ => hlooks.run_store fun _ h => MemoryStore.answerIn_of_isRead h
  have hrun' : p.run (answerIn order') s' = ((p.run (answerIn order) s).1, s') :=
    Prod.ext hsame (hstore order' s')
  rcases hresult : (p.run (answerIn order) s).1 with e | a
  · rw [hresult] at hrun'
    rw [Plan.run_bind_error (Prod.ext hresult (hstore order s)), Plan.run_bind_error hrun']
    exact ⟨fun _ _ => rfl, rfl, halike⟩
  · rw [hresult] at hrun'
    rw [Plan.run_bind_ok (Prod.ext hresult (hstore order s)), Plan.run_bind_ok hrun']
    exact hf a order order' s s' hs halike

/-- A plan that names what another has got. -/
theorem Insular.map {p : Plan α} (h : Insular keys p) (f : α → β) :
    Insular keys (do return f (← p)) := by
  intro order order' s s' hs halike
  obtain ⟨hothers, hsame, hafter⟩ := h order order' s s' hs halike
  have hmap : ∀ (order : ScanOrder) (s : MemoryStore),
      (do return f (← p) : Plan β).run (answerIn order) s
        = ((p.run (answerIn order) s).1.map f, (p.run (answerIn order) s).2) := by
    intro order s
    rcases hresult : p.run (answerIn order) s with ⟨e | a, s₁⟩
    · exact Plan.run_bind_error hresult
    · exact Plan.run_bind_ok hresult
  rw [hmap, hmap, hsame]
  exact ⟨hothers, rfl, hafter⟩

/-- What a deletion does once it has found the record comes to the same in stores that are
alike: nothing tells in which order a name has left the lists. -/
theorem insular_removal (kind : Kind) (n : String) : Insular keys (removal keys kind n) := by
  intro order order' s s' hs halike
  by_cases hon : s.online = true
  · have hdone : ∀ (order : ScanOrder) (s : MemoryStore), s.online = true → Readable keys s →
        ∃ s', (removal keys kind n).run (answerIn order) s = (.ok (), s') ∧ s'.online = true ∧
          ∀ k, s'.entries[k]? = entryAfterDelete keys kind n s k :=
      fun _ _ hon hs => run_removal hon (hs kind)
    obtain ⟨s₁, hrun, hon₁, hentry⟩ := hdone order s hon hs
    obtain ⟨s₁', hrun', hon₁', hentry'⟩ :=
      hdone order' s' (halike.online.trans hon) (hs.congr halike)
    rw [hrun, hrun']
    refine ⟨fun key hkey => ?_, rfl, hon₁'.trans hon₁.symm, fun key hkey => ?_⟩
    · rw [hentry, entryAfterDelete_of_not_owns hkey]
    · rw [hentry, hentry', entryAfterDelete_congr (halike.entry key hkey)]
  · have hoffline : ∀ (order : ScanOrder) (s : MemoryStore), s.online ≠ true →
        (removal keys kind n).run (answerIn order) s
          = (.error (.ofStore MemoryStore.offlineError), s) := by
      intro order s hon
      refine Plan.run_bind_error ?_
      rw [Plan.run_ask, MemoryStore.answerIn_offline hon]
      rfl
    have hon' : s'.online ≠ true := fun hon' => hon (halike.online.symm.trans hon')
    rw [hoffline order s hon, hoffline order' s' hon']
    exact ⟨fun _ _ => rfl, rfl, halike⟩

theorem insular_delete (kind : Kind) (n : String) : Insular keys (delete keys kind n) := by
  refine insular_look (Plan.looks_ask rfl) (Plan.within_ask (keys.owns_record kind n)) ?_
  intro found
  cases found
  · exact insular_of_within (Plan.within_fail _)
  · exact insular_removal kind n

/-- **Every operation keeps to its namespace.** -/
theorem insular_plan (op : Operation) : Insular keys (plan keys op) := by
  by_cases hop : ∃ kind n, op = .delete kind n
  · obtain ⟨kind, n, rfl⟩ := hop
    exact (insular_delete kind n).map fun _ => Answer.done
  · refine insular_of_within (within_plan fun kind n heq => ?_)
    exact hop ⟨kind, n, heq⟩

/-! ### Repositories side by side -/

variable {a b : KeySpace} {op : Operation} {held : List String} {past : List (Exchange MemoryStore)}
  {calls : List (KeySpace × Operation)} {events : List Crew.Event} {x : Exchange MemoryStore}

section

variable (order : ScanOrder) (calls : List (KeySpace × Operation)) (events : List Crew.Event)

/-- Operations of some repositories that were begun side by side on an empty store, after some
events. -/
def callsAfter : Crew MemoryStore Answer :=
  events.foldl (Crew.advance (answerIn order))
    (Crew.start .empty (calls.map fun call => plan call.1 call.2))

/-- What the operations exchanged with the store. -/
def callsLog : Log MemoryStore :=
  (Crew.start .empty (calls.map fun call => plan call.1 call.2)).log (answerIn order) events

/-- What the operation at a place may request. -/
def callConducts (i : Nat) : Allowance MemoryStore := fun held past s request =>
  ∃ call, calls[i]? = some call ∧ Conduct call.1 call.2 held past s request

end

/-- An operation writes keys of its namespace. -/
theorem Conduct.owns_of_writes {request : Request} (h : Conduct keys op held past s request)
    (hwrites : request.writes key = true) : keys.Owns key := by
  have hsubject : ∀ x : Subject, keys.Owns (x.key keys) := by
    intro x
    cases x with
    | realm n => exact keys.owns_realm n
    | record kind n => exact keys.owns_record kind n
  cases h with
  | look h =>
      rw [Request.writes_of_isRead h] at hwrites
      cases hwrites
  | create | update => exact of_decide_eq_true hwrites ▸ hsubject _
  | change => exact of_decide_eq_true hwrites ▸ keys.owns_members _ _
  | delete =>
      rw [List.mem_singleton.mp (of_decide_eq_true hwrites)]
      exact keys.owns_record _ _
  | deleteRealm =>
      have hmem := of_decide_eq_true hwrites
      simp only [List.mem_cons, List.not_mem_nil, or_false] at hmem
      rcases hmem with rfl | rfl | rfl
      · exact keys.owns_realm _
      · exact keys.owns_members _ _
      · exact keys.owns_members _ _

/-- An exchange leaves the keys of other namespaces alone. -/
theorem entry_of_not_owns (h : Conduct keys op held past x.before x.request)
    (hx : x.Answered (answerIn order)) (hkey : ¬ keys.Owns key) :
    x.after.entries[key]? = x.before.entries[key]? := by
  rcases answered_cases hx with ⟨-, hsame⟩ | ⟨-, -, hrun⟩
  · rw [hsame]
  · rw [hrun]
    refine entry_of_not_writes h (Bool.eq_false_iff.mpr fun hwrites => ?_)
    exact hkey (h.owns_of_writes hwrites)

/-- An exchange of a repository leaves its lists readable. -/
theorem readable_step (h : Conduct keys op held past x.before x.request)
    (hx : x.Answered (answerIn order)) (hbefore : Readable keys x.before) :
    Readable keys x.after := by
  intro kind r
  rcases answered_cases hx with ⟨-, hsame⟩ | ⟨-, hon, hrun⟩
  · rw [hsame]
    exact hbefore kind r
  rw [hrun]
  by_cases hwrites : x.request.writes (keys.members kind r) = true
  · obtain ⟨change, hasks⟩ := asks_of_writes h hwrites
    obtain ⟨ms, hms⟩ := Option.isSome_iff_exists.mp (hbefore kind r)
    rw [contents_of_asks hon hasks, hms]
    cases change <;> rfl
  · rw [contents_congr (entry_of_not_writes h (Bool.eq_false_iff.mpr hwrites))]
    exact hbefore kind r

/-- Whoever leaves the keys of a namespace alone keeps what is relied on there. -/
theorem kept_of_entries (h : ∀ key, keys.Owns key → s'.entries[key]? = s.entries[key]?) :
    Kept keys held s s' where
  members kind r _ := h _ (keys.owns_members kind r)
  realm _ r _ hr := by
    refine ⟨hr.1, ?_⟩
    show (s'.entries[keys.realm r]?).isSome = true
    rw [h _ (keys.owns_realm r)]
    exact hr.2

variable (order a b) in
/-- The terms on which two repositories share a store. -/
def sharing : Accord MemoryStore where
  answer := answerIn order
  keeps held s s' := Kept a held s s' ∧ Kept b held s s'
  refl held s := ⟨kept_refl a held s, kept_refl b held s⟩
  trans h h' := ⟨h.1.trans h'.1, h.2.trans h'.2⟩

/-- Repositories whose namespaces share no key do not disturb each other. -/
theorem considerate_calls (h : a.Apart b) (hcalls : ∀ call ∈ calls, call.1 = a ∨ call.1 = b) :
    Crew.Considerate (sharing order a b) (callConducts calls) := by
  have hdisjoint := KeySpace.apart_iff.mp h
  rintro i held past s request ⟨⟨keys, op⟩, hcall, hconduct⟩ others hothers
  have hother : ∀ keys' : KeySpace, (∀ key, keys'.Owns key → ¬ keys.Owns key) →
      Kept keys' others s (s.answerIn order request).2 := by
    intro keys' hne
    refine kept_of_entries fun key hkey => ?_
    exact entry_of_not_owns (x := .of (answerIn order) s request) hconduct (.inl rfl) (hne key hkey)
  rcases hcalls _ (List.mem_of_getElem? hcall) with rfl | rfl
  · exact ⟨hconduct.kept hothers, hother b fun key hb ha => hdisjoint key ha hb⟩
  · exact ⟨hother a hdisjoint, hconduct.kept hothers⟩

theorem abiding_calls (h : a.Apart b) (hcalls : ∀ call ∈ calls, call.1 = a ∨ call.1 = b)
    (events : List Crew.Event) :
    Crew.Abiding (sharing order a b) (callConducts calls) (fun _ _ _ _ => True) .empty
      (callsAfter order calls events) (callsLog order calls events) := by
  refine (Crew.abiding_start _ fun i p hp => ?_).events (considerate_calls h hcalls) events
  rw [List.getElem?_map, Option.map_eq_some_iff] at hp
  obtain ⟨⟨keys, op⟩, hcall, rfl⟩ := hp
  have hplan : Abides keys order op (Ends keys op) (plan keys op) [] [] .empty := abides_plan op _
  have hshared : (plan keys op).Abides (sharing order a b) (Conduct keys op) (Ends keys op) [] [] []
      .empty := by
    refine hplan.among rfl fun held s s' hkept => ?_
    rcases hcalls _ (List.mem_of_getElem? hcall) with rfl | rfl
    · exact hkept.1
    · exact hkept.2
  exact hshared.mono (fun _ _ _ _ hconduct => ⟨_, hcall, hconduct⟩) fun _ _ _ _ => trivial

theorem conduct_of_callsLog (h : a.Apart b) (hcalls : ∀ call ∈ calls, call.1 = a ∨ call.1 = b)
    {entry : Nat × Exchange MemoryStore} (hentry : entry ∈ callsLog order calls events) :
    entry.2.Answered (answerIn order) ∧ ∃ call held past, calls[entry.1]? = some call ∧
      Conduct call.1 call.2 held past entry.2.before entry.2.request := by
  have habiding := @abiding_calls order a b calls h hcalls events
  obtain ⟨l₁, l₂, hlog⟩ := List.append_of_mem hentry
  obtain ⟨held, call, hcall, hconduct⟩ := habiding.allowed l₁ entry.1 entry.2 l₂ hlog
  exact ⟨habiding.answered entry hentry, call, held, _, hcall, hconduct⟩

/-- Where two repositories share a store, the lists of one can be read at every point. -/
theorem readable_callsAfter (h : a.Apart b) (hcalls : ∀ call ∈ calls, call.1 = a ∨ call.1 = b)
    (events : List Crew.Event) : Readable a (callsAfter order calls events).store := by
  have hempty : Readable a .empty := by
    intro kind r
    rw [contents_of_none (MemoryStore.getElem?_empty _)]
    rfl
  refine ((abiding_calls h hcalls events).passes.forall (fun entry hentry hbefore => ?_) hempty).1
  obtain ⟨hanswered, ⟨keys, op⟩, held, past, hcall, hconduct⟩ :=
    conduct_of_callsLog h hcalls hentry
  rcases hcalls _ (List.mem_of_getElem? hcall) with rfl | rfl
  · exact readable_step hconduct hanswered hbefore
  · intro kind r
    have hown := a.owns_members kind r
    rw [contents_congr (entry_of_not_owns hconduct hanswered (KeySpace.apart_iff.mp h _ hown))]
    exact hbefore kind r

/-- **Namespaces that share no key are isolated.**  Where two repositories with such namespaces
share a store, nothing that the one requests, at any point, changes what lies under a key of
the other.  And an operation of the one, begun at any point, leaves the keys of the other alone
and comes to the same, with the same left under its own keys, whatever lies under all others
and in whatever order keys are listed. -/
theorem isolated_of_apart (a b : KeySpace) (h : a.Apart b) (order order' : ScanOrder)
    (calls : List (KeySpace × Operation)) (hcalls : ∀ call ∈ calls, call.1 = a ∨ call.1 = b)
    (events : List Crew.Event) (op : Operation) (s' : MemoryStore)
    (hs' : Alike a.Owns (callsAfter order calls events).store s') :
    (∀ entry ∈ callsLog order calls events, (∃ call ∈ calls[entry.1]?, call.1 = a) →
      ∀ key, b.Owns key → entry.2.after.entries[key]? = entry.2.before.entries[key]?) ∧
    (∀ key, b.Owns key →
      ((plan a op).run (answerIn order) (callsAfter order calls events).store).2.entries[key]?
        = (callsAfter order calls events).store.entries[key]?) ∧
    ((plan a op).run (answerIn order') s').1
      = ((plan a op).run (answerIn order) (callsAfter order calls events).store).1 ∧
    Alike a.Owns ((plan a op).run (answerIn order) (callsAfter order calls events).store).2
      ((plan a op).run (answerIn order') s').2 := by
  obtain ⟨hothers, hsame, hafter⟩ :=
    insular_plan op order order' _ s' (readable_callsAfter h hcalls events) hs'
  have hdisjoint := KeySpace.apart_iff.mp h.symm
  refine ⟨?_, fun key hkey => hothers key (hdisjoint key hkey), hsame, hafter⟩
  rintro entry hentry ⟨call, hcall, rfl⟩ key hkey
  obtain ⟨hanswered, call', held, past, hcall', hconduct⟩ := conduct_of_callsLog h hcalls hentry
  cases hcall.symm.trans hcall'
  exact entry_of_not_owns hconduct hanswered (hdisjoint key hkey)

/-! ### Two deployments -/

/-- The namespace of a deployment that shares no key with the default one. -/
def staging : KeySpace := ⟨"staging", by decide⟩

theorem default_apart_staging : KeySpace.default.Apart staging := by
  refine ⟨by decide, fun h => ?_, fun h => ?_⟩
  · obtain ⟨word, -, n, hkey⟩ := KeySpace.default.owns_iff.mp h
    have hfirst := congrArg List.head? hkey
    simp [KeySpace.default, staging] at hfirst
  · obtain ⟨word, -, n, hkey⟩ := staging.owns_iff.mp h
    have hfirst := congrArg List.head? hkey
    simp [KeySpace.default, staging] at hfirst

/-- A client of one name is created in both deployments. -/
def createInBoth : List (KeySpace × Operation) :=
  [(.default, .create .client (Utf8.ofString web)), (staging, .create .client (Utf8.ofString web))]

/-- The two creations go from their beginnings to their ends side by side. -/
def sideBySide : List Crew.Event := [0, 1, 0, 1, 0, 1, 0, 1].map .step

theorem isolated_of_apart_staging :
    let s := (callsAfter .rising createInBoth sideBySide).store
    let s' := s.drop [staging.record .client "web"]
    let deletion := plan .default (.delete .client "web")
    (KeySpace.default.Apart staging ∧ (∀ call ∈ createInBoth, call.1 = .default ∨ call.1 = staging) ∧
      Alike KeySpace.default.Owns s s') ∧
    (∀ key, staging.Owns key →
      (deletion.run (answerIn .rising) s).2.entries[key]? = s.entries[key]?) ∧
    (deletion.run (answerIn .rising) s').1 = (deletion.run (answerIn .rising) s).1 := by
  have hcalls : ∀ call ∈ createInBoth, call.1 = .default ∨ call.1 = staging := by
    intro call hcall
    simp only [createInBoth, List.mem_cons, List.not_mem_nil, or_false] at hcall
    rcases hcall with rfl | rfl
    · exact .inl rfl
    · exact .inr rfl
  have halike : Alike KeySpace.default.Owns (callsAfter .rising createInBoth sideBySide).store
      ((callsAfter .rising createInBoth sideBySide).store.drop [staging.record .client "web"]) := by
    refine ⟨MemoryStore.online_drop _ _, fun key hkey => ?_⟩
    rw [MemoryStore.getElem?_drop, if_neg]
    intro hmem
    rw [List.mem_singleton.mp hmem] at hkey
    exact KeySpace.apart_iff.mp default_apart_staging _ hkey (staging.owns_record _ _)
  obtain ⟨-, hothers, hsame, -⟩ := isolated_of_apart .default staging default_apart_staging .rising
    .rising createInBoth hcalls sideBySide (.delete .client "web") _ halike
  exact ⟨⟨default_apart_staging, hcalls, halike⟩, hothers, hsame⟩

/-- The namespace of a deployment that is a key of the default one. -/
def europe : KeySpace := ⟨"fe.realm_eu", by decide⟩

/-- It is not enough for isolation that namespaces differ: a realm of the one may have the key
of a client of the other, and go with it. -/
theorem client_deleted_as_realm :
    ¬ ∀ (a b : KeySpace) (calls : List (KeySpace × Operation)) (events : List Crew.Event)
      (op : Operation), a.root ≠ b.root → (∀ call ∈ calls, call.1 = a ∨ call.1 = b) →
      ∀ key, b.Owns key →
        ((plan a op).run (answerIn .rising) (callsAfter .rising calls events).store).2.entries[key]?
          = (callsAfter .rising calls events).store.entries[key]? := by
  intro h
  have hkept := h .default europe [(europe, .create .client (Utf8.ofString web))]
    (List.replicate 4 (.step 0)) (.deleteRealm "eu.client_web") (by decide)
    (fun call hcall => .inr (by rw [List.mem_singleton.mp hcall])) _
    (europe.owns_record .client "web")
  exact absurd hkept (by decide +kernel)

end IdentityStore.Keyed
