/-
Operations that share a store.

Operations are begun side by side against any store, with no lock taken, and their calls
come in any order; calls may fail, and operations may be given up.  Whatever they exchange
with the store was allowed when it was requested, so that the log of a run says for each
change of the store who made it and what was known then.
-/
import IdentityStore.Proofs.Keyed.Conduct

namespace IdentityStore.Keyed

variable {keys : KeySpace} {order : ScanOrder} {s : MemoryStore} {op : Operation}
  {held : List String} {past : List (Exchange MemoryStore)} {ops : List Operation}
  {events : List Crew.Event}

/-! ### Runs -/

section

variable (keys order)

/-- Some operations that were begun side by side, after some events. -/
def crewAfter (s : MemoryStore) (ops : List Operation) (events : List Crew.Event) :
    Crew MemoryStore Answer :=
  events.foldl (Crew.advance (MemoryStore.answerIn order)) (Crew.start s (ops.map (plan keys)))

/-- What some operations that were begun side by side exchanged with the store at some
events. -/
def logAfter (s : MemoryStore) (ops : List Operation) (events : List Crew.Event) :
    Log MemoryStore :=
  (Crew.start s (ops.map (plan keys))).log (MemoryStore.answerIn order) events

/-- What the operation at a place may request. -/
def conducts (ops : List Operation) (i : Nat) : Allowance MemoryStore := fun held past s request =>
  ∃ op, ops[i]? = some op ∧ Conduct keys op held past s request

/-- What the operation at a place has come to when it succeeds. -/
def ending (ops : List Operation) (i : Nat) (a : Answer) (past : List (Exchange MemoryStore))
    (s : MemoryStore) : Prop := ∃ op, ops[i]? = some op ∧ Ends keys op a past s

end

theorem considerate (ops : List Operation) :
    Crew.Considerate (accord keys order) (conducts keys ops) :=
  fun _ _ _ _ _ ⟨_, _, h⟩ _ hothers => h.kept hothers

/-- **Operations side by side request only what they may**, from whatever store, in whatever
order their calls come, and wherever calls fail or operations are given up. -/
theorem abiding_after (s : MemoryStore) (ops : List Operation) (events : List Crew.Event) :
    Crew.Abiding (accord keys order) (conducts keys ops) (ending keys ops) s
      (crewAfter keys order s ops events) (logAfter keys order s ops events) := by
  refine (Crew.abiding_start s fun i p hp => ?_).events (considerate ops) events
  rw [List.getElem?_map, Option.map_eq_some_iff] at hp
  obtain ⟨op, hop, rfl⟩ := hp
  exact (abides_plan op s).mono (fun _ _ _ _ h => ⟨op, hop, h⟩) fun _ _ _ h => ⟨op, hop, h⟩

/-- What is exchanged later comes after what was exchanged before. -/
theorem logAfter_append (keys : KeySpace) (order : ScanOrder) (s : MemoryStore)
    (ops : List Operation) (events later : List Crew.Event) :
    logAfter keys order s ops (events ++ later) = logAfter keys order s ops events ++
      (crewAfter keys order s ops events).log (MemoryStore.answerIn order) later :=
  Crew.log_append _ _ events later

/-- What is exchanged later leads from the store before to the store after. -/
theorem passes_later (keys : KeySpace) (order : ScanOrder) (s : MemoryStore)
    (ops : List Operation) (events later : List Crew.Event) :
    Log.Passes (crewAfter keys order s ops events).store
      ((crewAfter keys order s ops events).log (MemoryStore.answerIn order) later)
      (crewAfter keys order s ops (events ++ later)).store := by
  have hwhole := (@abiding_after keys order s ops (events ++ later)).passes
  rw [logAfter_append] at hwhole
  obtain ⟨middle, hfirst, hrest⟩ := hwhole.split
  exact hfirst.unique (abiding_after s ops events).passes ▸ hrest

/-! ### What an exchange changes -/

theorem answered_of_log {i : Nat} {x : Exchange MemoryStore}
    (h : (i, x) ∈ logAfter keys order s ops events) : x.Answered (MemoryStore.answerIn order) :=
  (abiding_after s ops events).answered (i, x) h

/-- What was exchanged was allowed when it was requested, and answered by the store. -/
theorem conduct_of_log {i : Nat} {x : Exchange MemoryStore} {l₁ l₂ : Log MemoryStore}
    (hlog : logAfter keys order s ops events = l₁ ++ (i, x) :: l₂) :
    ∃ op, ops[i]? = some op ∧ x.Answered (MemoryStore.answerIn order) ∧
      ∃ held, Conduct keys op held (Log.own i l₁) x.before x.request := by
  obtain ⟨held, op, hop, hconduct⟩ := (abiding_after s ops events).allowed l₁ i x l₂ hlog
  have hmem : (i, x) ∈ logAfter keys order s ops events := by
    rw [hlog]
    exact List.mem_append_right _ List.mem_cons_self
  exact ⟨op, hop, answered_of_log hmem, held, hconduct⟩

/-- A call that fails leaves the store as it is, and no other call fails to be run. -/
theorem answered_cases {x : Exchange MemoryStore} (h : x.Answered (MemoryStore.answerIn order)) :
    (x.reply.isOk = false ∧ x.after = x.before) ∨
      (x.reply.isOk = true ∧ x.before.online = true ∧
        x.after = (x.before.answerIn order x.request).2) := by
  obtain ⟨request, reply, before, after⟩ := x
  rcases h with hreal | hfailed
  · obtain ⟨hreply, hafter⟩ := Prod.mk.inj hreal
    dsimp only at hreply hafter ⊢
    cases reply with
    | ok a => exact .inr ⟨rfl, MemoryStore.online_of_answerIn hreply.symm, hafter⟩
    | error e =>
        refine .inl ⟨rfl, hafter.trans ?_⟩
        by_cases hread : request.isRead = true
        · exact MemoryStore.answerIn_of_isRead hread
        by_cases hon : before.online = true
        · -- a store that is online refuses no write
          cases request with
          | set key value =>
              cases hreply.trans (congrArg Prod.fst (MemoryStore.answerIn_set hon key value))
          | delete ks => cases hreply.trans (congrArg Prod.fst (MemoryStore.answerIn_delete hon ks))
          | setList key entries =>
              cases hreply.trans
                (congrArg Prod.fst (MemoryStore.answerIn_eq hon (.setList key entries)))
          | _ => exact absurd rfl hread
        · exact congrArg Prod.snd (MemoryStore.answerIn_offline hon request)
  · exact .inl hfailed

/-- A document that was not there comes from whoever creates it, or from whoever found it
earlier. -/
theorem stored_by {x : Exchange MemoryStore} {y : Subject}
    (h : Conduct keys op held past x.before x.request)
    (hx : x.Answered (MemoryStore.answerIn order)) (hbefore : ¬ y.Stored keys x.before)
    (hafter : y.Stored keys x.after) :
    (∃ text, x.request = .set (y.key keys) text) ∧ x.reply.isOk = true ∧
      (y ∈ op.creates ∨ (y ∈ op.updates ∧ Found keys past y)) := by
  obtain ⟨request, reply, before, after⟩ := x
  have hentry : (after.entries[y.key keys]?).isSome = true ∧
      (before.entries[y.key keys]?).isSome = false :=
    ⟨hafter.2, Bool.eq_false_iff.mpr fun hsome => hbefore ⟨hafter.1, hsome⟩⟩
  rcases answered_cases hx with ⟨-, hsame⟩ | ⟨hok, hon, hrun⟩
  · exact absurd (hsame ▸ hafter) hbefore
  dsimp only at h hon hrun
  subst hrun
  -- a request that leaves the entry of the document alone cannot have stored it
  have hwrote : ∀ {key : String} {entry : Entry},
      ((before.put key entry).entries[y.key keys]?).isSome = true → key = y.key keys := by
    intro key entry hput
    rw [MemoryStore.getElem?_put] at hput
    split_ifs at hput with hkey
    · exact hkey
    · rw [hentry.2] at hput
      cases hput
  have hdropped : ∀ {ks : List String},
      ((before.drop ks).entries[y.key keys]?).isSome ≠ true := by
    intro ks hdrop
    rw [MemoryStore.getElem?_drop] at hdrop
    split_ifs at hdrop
    · cases hdrop
    · rw [hentry.2] at hdrop
      cases hdrop
  have hsome := hentry.1
  cases h with
  | look h =>
      rw [MemoryStore.answerIn_of_isRead h, hentry.2] at hsome
      cases hsome
  | create hnamed h =>
      rw [MemoryStore.after_set, if_pos hon] at hsome
      cases Subject.key_inj (hwrote hsome)
      exact ⟨⟨_, rfl⟩, hok, .inl h⟩
  | update h hfound =>
      rw [MemoryStore.after_set, if_pos hon] at hsome
      cases Subject.key_inj (hwrote hsome)
      exact ⟨⟨_, rfl⟩, hok, .inr ⟨h, hfound⟩⟩
  | change =>
      rw [Membership.toEntries, MemoryStore.after_setList, if_pos hon] at hsome
      exact absurd (hwrote hsome).symm (Subject.key_ne_members hafter.1 _ _)
  | delete =>
      rw [MemoryStore.after_delete, if_pos hon] at hsome
      exact absurd hsome hdropped
  | deleteRealm =>
      rw [MemoryStore.after_delete, if_pos hon] at hsome
      exact absurd hsome hdropped

end IdentityStore.Keyed
