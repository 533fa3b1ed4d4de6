/-
Deletions that cascade.

The name of a deleted record leaves every list of its kind.  Which lists there are is told by a
scan over all keys, and they are rewritten one after the other, in the order of the scan, each of
them again if it comes up again.  None of this shows in what is left: under every key lies in
the end what can be told from what lay under it in the beginning, `entryAfterDelete`.  For a name
that has left a list takes nothing more out of it, and no list is another's.

A list that cannot be read stops a deletion, whether or not it has the name.  So where a deletion
succeeds all lists of the kind could be read: `run_delete_iff`, which says of both that they do
not depend on the order.
-/
import IdentityStore.Proofs.Keyed.Retry

namespace IdentityStore.Keyed

open IdentityStore.Membership (names)
open MemoryStore (answerIn)

variable {keys : KeySpace} {order : ScanOrder} {s s' : MemoryStore} {kind : Kind}
  {n key : String} {ms : List Member} {lists : List String}

/-! ### Out of one list after the other -/

/-- What lies under the key of a list after a name was taken out of it. -/
def entryWithout (n : String) (s : MemoryStore) (key : String) : Option Entry :=
  if n ∈ listed s key then
    some (.list (Membership.toEntries (Membership.without n ((contents s key).getD []))))
  else s.entries[key]?

theorem entryWithout_congr (h : s'.entries[key]? = s.entries[key]?) :
    entryWithout n s' key = entryWithout n s key := by
  rw [entryWithout, entryWithout, listed_congr h, contents_congr h, h]

theorem entryWithout_of_not_mem (h : n ∉ listed s key) : entryWithout n s key = s.entries[key]? :=
  if_neg h

theorem takeOut_of_mem (h : n ∈ names ms) :
    takeOut n ms = .ok (some (Membership.without n ms)) := by
  unfold takeOut
  dsimp only
  rw [if_neg fun hlength => Membership.length_without_eq_iff.mp hlength h]

theorem takeOut_of_not_mem (h : n ∉ names ms) : takeOut n ms = .ok none := by
  unfold takeOut
  dsimp only
  rw [if_pos (Membership.length_without_eq_iff.mpr h)]

/-- A name leaves a list that can be read. -/
theorem run_takeOut_of_contents (hon : s.online = true) (h : contents s key = some ms)
    (n : String) :
    ∃ s', (changeMembers keys key none (takeOut n)).run (answerIn order) s = (.ok (), s') ∧
      s'.online = true ∧ n ∉ listed s' key ∧ (contents s' key).isSome = true ∧
      ∀ k, s'.entries[k]? = if k = key then entryWithout n s key else s.entries[k]? := by
  rw [changeMembers_none, Plan.run_locked]
  by_cases hn : n ∈ names ms
  · have hafter : contents (rewritten s key (some (Membership.without n ms))) key
        = some (Membership.without n ms) :=
      contents_of_entry (by rw [rewritten, MemoryStore.getElem?_put, if_pos rfl])
        (Membership.nodup_without (nodup_contents h) n)
    have hentry : entryWithout n s key
        = some (.list (Membership.toEntries (Membership.without n ms))) := by
      rw [entryWithout, listed_of_contents h, if_pos hn, h]
      rfl
    refine ⟨_, run_rewriteMembers_of_contents hon h (takeOut_of_mem hn), hon, ?_, ?_, fun k => ?_⟩
    · rw [listed_of_contents hafter, Membership.names_without]
      simp
    · rw [hafter]
      rfl
    · rw [rewritten, MemoryStore.getElem?_put, hentry]
      simp only [eq_comm]
  · have hlisted : n ∉ listed s key := by
      rw [listed_of_contents h]
      exact hn
    refine ⟨_, run_rewriteMembers_of_contents hon h (takeOut_of_not_mem hn), hon, hlisted, ?_,
      fun k => ?_⟩
    · rw [rewritten, h]
      rfl
    · rw [rewritten, entryWithout_of_not_mem hlisted]
      split_ifs with hk
      · rw [hk]
      · rfl

/-- A name leaves all of some lists that can be read, in whatever order they come and however
often. -/
theorem run_removeEverywhere_of_contents (hon : s.online = true)
    (h : ∀ key ∈ lists, (contents s key).isSome = true) (n : String) :
    ∃ s', (removeEverywhere keys n lists).run (answerIn order) s = (.ok (), s') ∧
      s'.online = true ∧
      ∀ k, s'.entries[k]? = if k ∈ lists then entryWithout n s k else s.entries[k]? := by
  induction lists generalizing s with
  | nil => exact ⟨s, rfl, hon, fun k => by simp⟩
  | cons key rest ih =>
      obtain ⟨ms, hms⟩ := Option.isSome_iff_exists.mp (h key (by simp))
      obtain ⟨s₁, hrun₁, hon₁, hgone, hsome, hentry₁⟩ := run_takeOut_of_contents hon hms n
      have hother : ∀ k, k ≠ key → s₁.entries[k]? = s.entries[k]? := by
        intro k hk
        rw [hentry₁, if_neg hk]
      have hreadable : ∀ k ∈ rest, (contents s₁ k).isSome = true := by
        intro k hk
        by_cases heq : k = key
        · exact heq ▸ hsome
        · rw [contents_congr (hother k heq)]
          exact h k (by simp [hk])
      obtain ⟨s₂, hrun₂, hon₂, hentry₂⟩ := ih hon₁ hreadable
      refine ⟨s₂, (Plan.run_bind_ok hrun₁).trans hrun₂, hon₂, fun k => ?_⟩
      rw [hentry₂]
      by_cases heq : k = key
      · -- the name is gone from the list already
        subst heq
        rw [entryWithout_of_not_mem hgone, ite_self, hentry₁, if_pos rfl, if_pos (by simp)]
      · rw [entryWithout_congr (hother k heq), hother k heq]
        simp [heq]

/-- Lists that a name was taken out of could be read before. -/
theorem isSome_of_run_removeEverywhere
    (h : (removeEverywhere keys n lists).run (answerIn order) s = (.ok (), s')) :
    ∀ key ∈ lists, (contents s key).isSome = true := by
  induction lists generalizing s with
  | nil => simp
  | cons key rest ih =>
      rcases Plan.run_bind_cases h with ⟨_, -, herror⟩ | ⟨_, s₁, hfirst, hrest⟩
      · cases herror
      rw [changeMembers_none, Plan.run_locked] at hfirst
      obtain ⟨-, ms, changed, hms, -, rfl⟩ := of_run_rewriteMembers hfirst
      intro k hk
      by_cases heq : k = key
      · rw [heq, hms]
        rfl
      · have hother : (rewritten s key changed).entries[k]? = s.entries[k]? := by
          cases changed with
          | none => rfl
          | some ms' => rw [rewritten, MemoryStore.getElem?_put, if_neg (Ne.symm heq)]
        rw [← contents_congr hother]
        exact ih hrest k ((List.mem_cons.mp hk).resolve_left heq)

/-! ### What is left of a store -/

/-- What lies under a key after a record was deleted. -/
def entryAfterDelete (keys : KeySpace) (kind : Kind) (n : String) (s : MemoryStore) (key : String) :
    Option Entry :=
  if key = keys.record kind n then none
  else if Glob.isMatch (keys.membersPattern kind) key = true then entryWithout n s key
  else s.entries[key]?

theorem entryAfterDelete_record : entryAfterDelete keys kind n s (keys.record kind n) = none :=
  if_pos rfl

theorem entryAfterDelete_members (r : String) :
    entryAfterDelete keys kind n s (keys.members kind r)
      = entryWithout n s (keys.members kind r) := by
  rw [entryAfterDelete, if_neg keys.record_ne_members.symm, if_pos (keys.isMatch_members kind r)]

theorem entryAfterDelete_of_other (hrecord : key ≠ keys.record kind n)
    (hmembers : ∀ r, key ≠ keys.members kind r) :
    entryAfterDelete keys kind n s key = s.entries[key]? := by
  have hmatch : ¬ Glob.isMatch (keys.membersPattern kind) key = true := by
    rw [keys.isMatch_membersPattern_iff]
    rintro ⟨r, rfl⟩
    exact hmembers r rfl
  rw [entryAfterDelete, if_neg hrecord, if_neg hmatch]

/-- What a deletion does once it has found the record. -/
def removal (keys : KeySpace) (kind : Kind) (n : String) : Plan Unit := do
  let lists ← Plan.ask (.scan (keys.membersPattern kind))
  removeEverywhere keys n lists
  let _ ← Plan.ask (.delete [keys.record kind n])
  return ()

theorem run_scan_of_online (hon : s.online = true) (pattern : String) :
    (Plan.ask (.scan pattern)).run (answerIn order) s
      = (.ok (order.arrange s.keys pattern), s) := by
  rw [Plan.run_ask]
  simp only [answerIn, if_pos hon]
  rfl

/-- Where all lists of the kind can be read, the record is deleted and its name leaves them. -/
theorem run_removal (hon : s.online = true)
    (hs : ∀ r, (contents s (keys.members kind r)).isSome = true) :
    ∃ s', (removal keys kind n).run (answerIn order) s = (.ok (), s') ∧ s'.online = true ∧
      ∀ k, s'.entries[k]? = entryAfterDelete keys kind n s k := by
  have hlists : ∀ key ∈ order.arrange s.keys (keys.membersPattern kind),
      (contents s key).isSome = true := by
    intro key hkey
    obtain ⟨r, rfl⟩ := keys.isMatch_membersPattern_iff.mp (order.mem_arrange.mp hkey).2
    exact hs r
  obtain ⟨s₁, hrun, hon₁, hentry⟩ := run_removeEverywhere_of_contents hon hlists n
  have hdelete : (Plan.ask (.delete [keys.record kind n])).run (answerIn order) s₁
      = (.ok (s₁.deleteAll [keys.record kind n]).1, s₁.drop [keys.record kind n]) := by
    rw [Plan.run_ask, MemoryStore.answerIn_delete hon₁]
    rfl
  refine ⟨s₁.drop [keys.record kind n], ?_, by rw [MemoryStore.online_drop, hon₁], fun k => ?_⟩
  · unfold removal
    rw [Plan.run_bind_ok (run_scan_of_online hon _), Plan.run_bind_ok hrun,
      Plan.run_bind_ok hdelete]
    rfl
  · rw [MemoryStore.getElem?_drop, hentry, entryAfterDelete]
    simp only [List.mem_singleton, order.mem_arrange]
    by_cases hmatch : Glob.isMatch (keys.membersPattern kind) k = true
    · by_cases hk : k ∈ s.keys
      · simp [hmatch, hk]
      · -- a list that is not there is found by no scan, and has nothing to take out
        have hnone := s.getElem?_of_not_mem_keys hk
        have hlisted : n ∉ listed s k := by
          rw [listed_of_contents (contents_of_none hnone)]
          exact List.not_mem_nil
        simp [hmatch, hk, entryWithout_of_not_mem hlisted]
    · simp [hmatch]

/-- A record is deleted only where all lists of its kind can be read. -/
theorem isSome_of_run_removal (hon : s.online = true)
    (h : (removal keys kind n).run (answerIn order) s = (.ok (), s')) (r : String) :
    (contents s (keys.members kind r)).isSome = true := by
  unfold removal at h
  rw [Plan.run_bind_ok (run_scan_of_online hon _)] at h
  rcases Plan.run_bind_cases h with ⟨_, -, herror⟩ | ⟨_, s₁, hremove, -⟩
  · cases herror
  by_cases hkey : keys.members kind r ∈ s.keys
  · have hmem := order.mem_arrange.mpr ⟨hkey, keys.isMatch_members kind r⟩
    exact isSome_of_run_removeEverywhere hremove _ hmem
  · rw [contents_of_none (s.getElem?_of_not_mem_keys hkey)]
    rfl

/-- When a deletion succeeds, and what it leaves. -/
structure Deletes (keys : KeySpace) (kind : Kind) (n : String) (s s' : MemoryStore) : Prop where
  online : s.online = true
  found : (s.entries[keys.record kind n]?).isSome = true
  readable : ∀ r, (contents s (keys.members kind r)).isSome = true
  same : s'.online = s.online
  entry : ∀ key, s'.entries[key]? = entryAfterDelete keys kind n s key

/-- **A deletion succeeds** if it finds the record and can read all lists of its kind. -/
theorem run_delete_iff :
    (delete keys kind n).run (answerIn order) s = (.ok (), s') ↔ Deletes keys kind n s s' := by
  constructor
  · intro h
    obtain ⟨found, hhas, h⟩ := (passes_iff (Plan.looks_ask rfl)).mp h
    have hon : s.online = true := MemoryStore.online_of_answerIn (Plan.run_ask_ok hhas)
    rw [run_has_of_online hon] at hhas
    cases found with
    | false => cases h
    | true =>
        have hsome : (s.entries[keys.record kind n]?).isSome = true :=
          Except.ok.inj (congrArg Prod.fst hhas)
        have hremoval : (removal keys kind n).run (answerIn order) s = (.ok (), s') := h
        have hlists := isSome_of_run_removal hon hremoval
        obtain ⟨s₁, hrun, hon₁, hentry⟩ := run_removal hon hlists
        obtain rfl : s₁ = s' := congrArg Prod.snd (hrun.symm.trans hremoval)
        exact ⟨hon, hsome, hlists, hon₁.trans hon.symm, hentry⟩
  · intro h
    obtain ⟨s₁, hrun, hon₁, hentry⟩ := @run_removal keys order s kind n h.online h.readable
    have hsame : s₁ = s' := by
      refine MemoryStore.eq_of_getElem? (hon₁.trans (h.same.trans h.online).symm) fun k => ?_
      rw [hentry, h.entry]
    unfold delete
    rw [Plan.run_bind_ok (run_has_of_online h.online _), h.found, ← hsame]
    exact hrun

/-- **A deletion cascades, and touches nothing else.**  Whatever the store holds, if a record is
deleted then its key is gone.  Every list of its kind could be read, whether or not its realm
exists, and is left without the name and otherwise as it was: in one entry if it had the name,
and untouched if not.  Nothing changes under any other key.  And the deletion succeeds and leaves
the same store in whatever order the keys are listed, however often one is listed. -/
theorem deletion_cascades (keys : KeySpace) (order : ScanOrder) (s s' : MemoryStore) (kind : Kind)
    (n : String) (answer : Answer)
    (h : (plan keys (.delete kind n)).run (answerIn order) s = (.ok answer, s')) :
    s'.entries[keys.record kind n]? = none ∧
    (∀ r, ∃ ms, contents s (keys.members kind r) = some ms ∧
      contents s' (keys.members kind r) = some (Membership.without n ms) ∧
      s'.entries[keys.members kind r]?
        = if n ∈ names ms then some (.list (Membership.toEntries (Membership.without n ms)))
          else s.entries[keys.members kind r]?) ∧
    (∀ key, key ≠ keys.record kind n → (∀ r, key ≠ keys.members kind r) →
      s'.entries[key]? = s.entries[key]?) ∧
    ∀ order', (plan keys (.delete kind n)).run (answerIn order') s = (.ok answer, s') := by
  rcases Plan.run_bind_cases h with ⟨_, -, herror⟩ | ⟨_, s₁, hdelete, hdone⟩
  · cases herror
  cases hdone
  have hdeletes : Deletes keys kind n s s' := run_delete_iff.mp hdelete
  refine ⟨?_, fun r => ?_, fun key hrecord hmembers => ?_, fun order' => ?_⟩
  · rw [hdeletes.entry, entryAfterDelete_record]
  · obtain ⟨ms, hms⟩ := Option.isSome_iff_exists.mp (hdeletes.readable r)
    have hentry : s'.entries[keys.members kind r]?
        = if n ∈ names ms then some (.list (Membership.toEntries (Membership.without n ms)))
          else s.entries[keys.members kind r]? := by
      rw [hdeletes.entry, entryAfterDelete_members, entryWithout, listed_of_contents hms, hms]
      rfl
    refine ⟨ms, hms, ?_, hentry⟩
    by_cases hn : n ∈ names ms
    · rw [if_pos hn] at hentry
      exact contents_of_entry hentry (Membership.nodup_without (nodup_contents hms) n)
    · rw [if_neg hn] at hentry
      rw [contents_congr hentry, hms, Membership.without_of_not_mem hn]
  · rw [hdeletes.entry, entryAfterDelete_of_other hrecord hmembers]
  · exact Plan.run_bind_ok (run_delete_iff.mpr hdeletes)

/-- Members that were added one batch at a time are read together. -/
theorem contents_of_batches {batches : List (List Member)}
    (h : s.entries[key]? = some (.list (batches.map Member.writeEntry))) :
    contents s key = some (Membership.collapse batches.flatten) := by
  exact contents_of_list (by rw [MemoryStore.list?, h])
    (Membership.ofEntries_of_spells (Membership.spells_writeEntry batches))

/-- A store with a client that a list has in the first of two entries, and a list that has it
not, also in two entries.  Neither list is of a realm that exists. -/
def scatteredStore : MemoryStore :=
  let web : Member := ⟨.nil, "web"⟩
  let old : Member := ⟨.nil, "old"⟩
  ((MemoryStore.empty.put (KeySpace.default.members .client "acme")
      (.list ([[web], [old]].map Member.writeEntry))).put
    (KeySpace.default.members .client "shop") (.list ([[old], [old]].map Member.writeEntry))).put
    (KeySpace.default.record .client "web") (.text "")

theorem deletion_cascades_web :
    let acme := KeySpace.default.members .client "acme"
    let shop := KeySpace.default.members .client "shop"
    let deletion := plan .default (.delete .client "web")
    ∃ answer s', deletion.run (answerIn .rising) scatteredStore = (.ok answer, s') ∧
      s'.entries[KeySpace.default.record .client "web"]? = none ∧
      s'.entries[acme]? = some (.list (Membership.toEntries [⟨.nil, "old"⟩])) ∧
      s'.entries[shop]? = scatteredStore.entries[shop]? ∧
      ∀ order, deletion.run (answerIn order) scatteredStore = (.ok answer, s') := by
  intro acme shop deletion
  have hanswer : (deletion.run (answerIn .rising) scatteredStore).1.map (fun _ => ()) = .ok () := by
    decide +kernel
  have hacme : contents scatteredStore acme = some [⟨.nil, "web"⟩, ⟨.nil, "old"⟩] := by
    refine @contents_of_batches _ _ [[⟨.nil, "web"⟩], [⟨.nil, "old"⟩]] ?_
    rw [scatteredStore, MemoryStore.getElem?_put, if_neg (by decide), MemoryStore.getElem?_put,
      if_neg (by decide), MemoryStore.getElem?_put, if_pos rfl]
  have hshop : contents scatteredStore shop = some [⟨.nil, "old"⟩] := by
    refine @contents_of_batches _ _ [[⟨.nil, "old"⟩], [⟨.nil, "old"⟩]] ?_
    rw [scatteredStore, MemoryStore.getElem?_put, if_neg (by decide), MemoryStore.getElem?_put,
      if_pos rfl]
  rcases hrun : deletion.run (answerIn .rising) scatteredStore with ⟨_ | answer, s'⟩
  · rw [hrun] at hanswer
    cases hanswer
  · obtain ⟨hrecord, hlists, -, horder⟩ :=
      deletion_cascades .default .rising scatteredStore s' .client "web" answer hrun
    obtain ⟨ms, hms, -, hentry⟩ := hlists "acme"
    obtain ⟨ms', hms', -, hentry'⟩ := hlists "shop"
    cases hacme.symm.trans hms
    cases hshop.symm.trans hms'
    rw [if_pos (by decide)] at hentry
    rw [if_neg (by decide)] at hentry'
    exact ⟨answer, s', rfl, hrecord, hentry, hentry', horder⟩

end IdentityStore.Keyed
