/-
Who creates a realm.

A creation looks whether the realm is there, and writes its document last; unlike a record,
which is looked up and written under one lock, the realm is not locked in between.  So two
creations of one realm may both find nothing and both succeed, and what the first has written
is overwritten by the second.

They have to overlap for that.  A document of a realm stays until the realm is deleted, and so
whoever looks after it was written finds it.  Of two creations that both succeed, each has
looked before the other wrote.
-/
import IdentityStore.Proofs.Keyed.Belonging
import IdentityStore.Proofs.Plan.Trace

namespace IdentityStore

/-- Only the creation of a realm creates it. -/
theorem Operation.creates_realm {op : Operation} {r : String} (h : .realm r ∈ op.creates) :
    ∃ payload realm, op = .createRealm payload ∧ Keyed.realmOfRequest payload = .ok realm ∧
      realm.name = r := by
  cases op with
  | createRealm payload =>
      rcases hrealm : Keyed.realmOfRequest payload with e | realm
      · simp [creates, hrealm] at h
      · have hname : realm.name = r := by simpa [creates, hrealm, eq_comm] using h
        exact ⟨payload, realm, rfl, hrealm, hname⟩
  | create kind payload => exact absurd h (realm_not_mem_creates rfl r)
  | _ => simp [creates] at h

namespace Keyed

variable {keys : KeySpace} {order : ScanOrder} {s : MemoryStore} {op : Operation} {r : String}
  {held : List String} {past : List (Exchange MemoryStore)} {ops : List Operation}
  {events : List Crew.Event} {i j : Nat} {x : Exchange MemoryStore}

/-! ### What stays -/

/-- A document stays, unless whoever may delete it does. -/
theorem stored_kept (h : Conduct keys op held past x.before x.request)
    (hx : x.Answered (MemoryStore.answerIn order)) {y : Subject} (hop : y ∉ op.deletes)
    (hbefore : y.Stored keys x.before) : y.Stored keys x.after := by
  obtain ⟨request, reply, before, after⟩ := x
  rcases answered_cases hx with ⟨-, hsame⟩ | ⟨-, hon, hrun⟩
  · exact hsame ▸ hbefore
  dsimp only at h hon hrun hbefore ⊢
  subst hrun
  cases h with
  | look h =>
      rw [MemoryStore.answerIn_of_isRead h]
      exact hbefore
  | create =>
      rw [MemoryStore.after_set, if_pos hon]
      exact hbefore.put _ _
  | update =>
      rw [MemoryStore.after_set, if_pos hon]
      exact hbefore.put _ _
  | change =>
      rw [Membership.toEntries, MemoryStore.after_setList, if_pos hon]
      exact hbefore.put _ _
  | @delete _ _ _ kind n heq =>
      rw [MemoryStore.after_delete, if_pos hon]
      refine hbefore.drop fun hmem => hop ?_
      have hy : y = .record kind n := Subject.key_inj (List.mem_singleton.mp hmem)
      simp [hy, heq, Operation.deletes]
  | @deleteRealm _ _ _ n heq =>
      rw [MemoryStore.after_delete, if_pos hon]
      refine hbefore.drop fun hmem => hop ?_
      simp only [List.mem_cons, List.not_mem_nil, or_false] at hmem
      rcases hmem with hkey | hkey | hkey
      · have hy : y = .realm n := Subject.key_inj hkey
        simp [hy, heq, Operation.deletes]
      · exact absurd hkey (Subject.key_ne_members hbefore.1 _ _)
      · exact absurd hkey (Subject.key_ne_members hbefore.1 _ _)

/-- What is written is found by all who look later, if nobody deletes it. -/
theorem stored_after_write {y : Subject} (hops : ∀ op ∈ ops, y ∉ op.deletes)
    (hnamed : y.isNamed = true) {write : Exchange MemoryStore} {text : String}
    {l₁ l₂ : Log MemoryStore} (hlog : logAfter keys order s ops events = l₁ ++ (j, write) :: l₂)
    (hwrite : write.request = .set (y.key keys) text) (hok : write.reply.isOk = true) :
    ∀ entry ∈ l₂, y.Stored keys entry.2.before := by
  have hmem : ∀ {entry}, entry ∈ (j, write) :: l₂ → entry ∈ logAfter keys order s ops events := by
    intro entry hentry
    rw [hlog]
    exact List.mem_append_right _ hentry
  have hafter : y.Stored keys write.after := by
    rcases answered_cases (answered_of_log (hmem List.mem_cons_self)) with
      ⟨hfailed, -⟩ | ⟨-, hon, hrun⟩
    · rw [hok] at hfailed
      cases hfailed
    rw [hrun, hwrite, MemoryStore.after_set, if_pos hon]
    exact ⟨hnamed, by simp [MemoryStore.getElem?_put]⟩
  have hpasses := (@abiding_after keys order s ops events).passes
  rw [hlog] at hpasses
  obtain ⟨_, -, -, hrest⟩ := hpasses.split
  refine (hrest.forall (P := fun s => y.Stored keys s) ?_ hafter).2
  intro entry hentry hbefore
  obtain ⟨l, l', hdivided⟩ := List.append_of_mem (hmem (List.mem_cons_of_mem _ hentry))
  obtain ⟨op, hop, hanswered, held, hconduct⟩ := conduct_of_log hdivided
  exact stored_kept hconduct hanswered (hops op (List.mem_of_getElem? hop)) hbefore

/-! ### What a creation has done -/

/-- A creation that succeeds has looked for the realm and not found it, and has written its
document. -/
theorem concludes_createRealm {payload : List UInt8} {realm a : Realm}
    (hrealm : realmOfRequest payload = .ok realm)
    (h : (createRealm keys payload).Concludes past (.ok a)) :
    isRealmName realm.name = true ∧
      (∃ before after, ⟨.has (keys.realm realm.name), .ok false, before, after⟩ ∈ past) ∧
      ∃ text before after, ⟨.set (keys.realm realm.name) text, .ok (), before, after⟩ ∈ past := by
  obtain ⟨realm', hrealm', hchecked⟩ := h.known
  cases hrealm.symm.trans hrealm'
  obtain ⟨_, hname, hnamed⟩ := hchecked.known
  have hname := checkRealmName_eq_ok_iff.mp hname
  -- the first request looks for the realm
  obtain ⟨found, looked, rest, rfl, hlooked, hgone⟩ := hnamed.bind_ok
  rw [realmExists, if_pos hname] at hlooked
  obtain ⟨reply, before, after, rfl, hreply⟩ := hlooked.ask
  split_ifs at hgone with hfound
  · cases hgone.fail.2
  have hlook : reply = .ok false := by
    cases reply with
    | error e => cases hreply
    | ok b =>
        cases hreply
        simpa using hfound
  -- the last one writes the document
  obtain ⟨_, _, rest₁, rfl, -, h₁⟩ := hgone.bind_ok
  obtain ⟨_, _, rest₂, rfl, -, h₂⟩ := h₁.bind_ok
  obtain ⟨_, _, rest₃, rfl, -, h₃⟩ := h₂.bind_ok
  obtain ⟨_, _, rest₄, rfl, -, h₄⟩ := h₃.bind_ok
  obtain ⟨_, _, rest₅, rfl, -, h₅⟩ := h₄.bind_ok
  obtain ⟨_, _, rest₆, rfl, -, h₆⟩ := h₅.bind_ok
  obtain ⟨_, wrote, rest₇, rfl, hwrote, -⟩ := h₆.bind_ok
  obtain ⟨written, before', after', rfl, hwritten⟩ := hwrote.ask
  have hok : written = .ok () := by
    cases written with
    | error e => cases hwritten
    | ok u => rfl
  subst hlook hok
  exact ⟨hname, ⟨before, after, by simp⟩, realm.withoutMembers.write, before', after', by simp⟩

/-! ### Runs -/

section

variable (keys order s ops events)

/-- The operation at a place was to create a realm, and it has succeeded. -/
def Created (r : String) (i : Nat) : Prop :=
  (∃ op ∈ ops[i]?, .realm r ∈ op.creates) ∧
    ∃ w ∈ (crewAfter keys order s ops events).workers[i]?, ∃ result ∈ w.result?,
      result.isOk = true

instance (r : String) (i : Nat) : Decidable (Created keys order s ops events r i) :=
  inferInstanceAs (Decidable (_ ∧ _))

end

/-- One worker has looked for a realm, in vain, before another wrote its document. -/
def LooksBefore (keys : KeySpace) (log : Log MemoryStore) (r : String) (i j : Nat) : Prop :=
  ∃ look write text, look.Succeeds (.has (keys.realm r)) false ∧
    write.Succeeds (.set (keys.realm r) text) () ∧ [(i, look), (j, write)].Sublist log

/-- Whoever has created a realm has looked for it in vain and has written its document. -/
theorem exchanges_of_created (h : Created keys order s ops events r i) :
    isRealmName r = true ∧
      (∃ before after, (i, ⟨.has (keys.realm r), .ok false, before, after⟩) ∈
        logAfter keys order s ops events) ∧
      ∃ text before after, (i, ⟨.set (keys.realm r) text, .ok (), before, after⟩) ∈
        logAfter keys order s ops events := by
  obtain ⟨⟨op, hop, hcreates⟩, w, hw, result, hresult, hok⟩ := h
  obtain ⟨payload, realm, rfl, hrealm, rfl⟩ := Operation.creates_realm hcreates
  obtain ⟨a, rfl⟩ : ∃ a, result = .ok a := by
    cases result with
    | error e => cases hok
    | ok a => exact ⟨a, rfl⟩
  have hplan : (ops.map (plan keys))[i]? = some (plan keys (.createRealm payload)) := by
    rw [List.getElem?_map, hop]
    rfl
  have hconcludes := Crew.concludes_of_result hplan hw hresult
  obtain ⟨_, first, rest, hown, hfirst, -⟩ := hconcludes.bind_ok
  obtain ⟨hname, ⟨before, after, hlook⟩, text, before', after', hwrite⟩ :=
    concludes_createRealm hrealm hfirst
  have hmem : ∀ x ∈ first, (i, x) ∈ logAfter keys order s ops events := by
    intro x hx
    refine Log.mem_own.mp ?_
    rw [logAfter, hown]
    exact List.mem_append_left _ hx
  exact ⟨hname, ⟨before, after, hmem _ hlook⟩, text, before', after', hmem _ hwrite⟩

/-- Of two that have created a realm, one has looked in vain before the other wrote. -/
theorem looksBefore_of_created (hops : ∀ op ∈ ops, .realm r ∉ op.deletes)
    (hi : Created keys order s ops events r i) (hj : Created keys order s ops events r j)
    (hne : i ≠ j) : LooksBefore keys (logAfter keys order s ops events) r i j := by
  obtain ⟨hname, ⟨before, after, hlook⟩, -⟩ := exchanges_of_created hi
  obtain ⟨-, -, text, before', after', hwrite⟩ := exchanges_of_created hj
  refine ⟨⟨.has (keys.realm r), .ok false, before, after⟩,
    ⟨.set (keys.realm r) text, .ok (), before', after'⟩, text, ⟨_, _, rfl⟩, ⟨_, _, rfl⟩, ?_⟩
  obtain ⟨l₁, l₂, hlog⟩ := List.append_of_mem hwrite
  rw [hlog] at hlook ⊢
  rcases List.mem_append.mp hlook with hlook | hlook
  · exact (List.singleton_sublist.mpr hlook).append (by simp)
  rcases List.mem_cons.mp hlook with heq | hlook
  · exact absurd (congrArg Prod.fst heq) hne
  -- a look that came later would have found the document
  have hstored := stored_after_write (y := .realm r) hops hname hlog rfl rfl _ hlook
  have hanswered := answered_of_log (x := ⟨.has (keys.realm r), .ok false, before, after⟩)
    (by rw [hlog]; exact List.mem_append_right _ (List.mem_cons_of_mem _ hlook))
  rcases hanswered with hreal | ⟨hfailed, -⟩
  · have habsent := isSome_of_has (congrArg Prod.fst hreal).symm
    exact absurd (hstored.2.symm.trans habsent) (by decide)
  · cases hfailed

/-- **A realm is created once, unless creations of it overlap.**  If nobody deletes a realm, and
two operations have created it, then each of them has looked for it in vain before the other
wrote its document. -/
theorem created_once_unless_overlapping (keys : KeySpace) (order : ScanOrder) (s : MemoryStore)
    (ops : List Operation) (events : List Crew.Event) (r : String) (i j : Nat)
    (hops : ∀ op ∈ ops, .realm r ∉ op.deletes)
    (hi : Created keys order s ops events r i) (hj : Created keys order s ops events r j) :
    i = j ∨ (LooksBefore keys (logAfter keys order s ops events) r i j ∧
      LooksBefore keys (logAfter keys order s ops events) r j i) := by
  by_cases hij : i = j
  · exact .inl hij
  · exact .inr ⟨looksBefore_of_created hops hi hj hij,
      looksBefore_of_created hops hj hi (Ne.symm hij)⟩

/-! ### Two creations that overlap -/

/-- A realm without members, in words. -/
def acmeRealm (seconds : String) : List UInt8 :=
  Utf8.ofString ("\x7b\"name\":\"acme\",\"token_expiration\":" ++ seconds ++
    ",\"refresh_expiration\":120\x7d")

/-- A realm is created twice side by side, with different settings. -/
def createTwice : List Operation := [.createRealm (acmeRealm "60"), .createRealm (acmeRealm "90")]

/-- Both creations have looked for the realm, and then one goes to its end after the other. -/
def bothLookFirst : List Crew.Event :=
  ([0, 1] ++ List.replicate 7 0 ++ List.replicate 7 1).map .step

theorem created_twice :
    (∀ op ∈ createTwice, .realm "acme" ∉ op.deletes) ∧
      Created .default .rising .empty createTwice bothLookFirst "acme" 0 ∧
      Created .default .rising .empty createTwice bothLookFirst "acme" 1 := by
  decide +kernel

theorem created_once_unless_overlapping_acme :
    let log := logAfter .default .rising .empty createTwice bothLookFirst
    ((∀ op ∈ createTwice, .realm "acme" ∉ op.deletes) ∧
      Created .default .rising .empty createTwice bothLookFirst "acme" 0 ∧
      Created .default .rising .empty createTwice bothLookFirst "acme" 1) ∧
      (0 = 1 ∨ (LooksBefore .default log "acme" 0 1 ∧ LooksBefore .default log "acme" 1 0)) := by
  obtain ⟨hops, hfirst, hsecond⟩ := created_twice
  exact ⟨⟨hops, hfirst, hsecond⟩, created_once_unless_overlapping .default .rising .empty
    createTwice bothLookFirst "acme" 0 1 hops hfirst hsecond⟩

/-- Where nobody deletes a realm, it may be created twice nevertheless. -/
theorem realm_created_twice :
    ¬ ∀ (s : MemoryStore) (ops : List Operation) (events : List Crew.Event) (r : String)
      (i j : Nat), (∀ op ∈ ops, .realm r ∉ op.deletes) →
        Created .default .rising s ops events r i → Created .default .rising s ops events r j →
        i = j := by
  intro h
  obtain ⟨hops, hfirst, hsecond⟩ := created_twice
  exact absurd (h .empty createTwice bothLookFirst "acme" 0 1 hops hfirst hsecond) (by decide)

end Keyed

end IdentityStore
