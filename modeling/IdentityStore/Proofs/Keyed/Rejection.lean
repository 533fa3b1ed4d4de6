/-
Operations that are rejected.

A rejected operation leaves no trace, whatever the store holds: it has only read.  Most
operations check and then write once.  Two write more often.  A deletion is not rejected any more
once it has found the record, since a list that cannot be read is no fault of the request.  And
the creation of a realm checks every member twice, before it writes anything and again when the
member's turn has come.  What it writes for one member leaves what was found for the others, so
that nothing is rejected in the second pass that was not rejected in the first.
-/
import IdentityStore.Proofs.Keyed.Retry
import IdentityStore.Proofs.Plan.Rejection

namespace IdentityStore.Keyed

open MemoryStore (answerIn answerIn_of_isRead)
open Plan (Accepted Cautious)

variable {keys : KeySpace} {order : ScanOrder} {s : MemoryStore} {α β : Type}

/-! ### Looking first -/

theorem cautious_look {p : Plan α} {f : α → Plan β} (hp : p.Looks)
    (hf : ∀ a, p.run (answerIn order) s = (.ok a, s) → (f a).Cautious (answerIn order) s) :
    (p >>= f).Cautious (answerIn order) s :=
  Plan.cautious_look (fun _ _ => answerIn_of_isRead) hp hf

theorem cautious_known {x : Except StorageError α} {f : α → Plan β}
    (hf : ∀ a, (f a).Cautious (answerIn order) s) :
    (Plan.ofExcept x >>= f).Cautious (answerIn order) s :=
  cautious_look (Plan.looks_ofExcept x) fun a _ => hf a

theorem cautious_fail (e : StorageError) :
    (Plan.fail e : Plan α).Cautious (answerIn order) s := (Plan.looks_fail e).cautious s

/-- A single request as the last step. -/
theorem cautious_ask {r : Request} (a : α) :
    (Plan.ask r >>= fun _ => pure a).Cautious (answerIn order) s :=
  (Plan.accepted_ask r s).cautious.map fun _ => a

/-! ### Lists -/

section Lists

variable {key : String} {change : List Member → Except StorageError (Option (List Member))}

theorem cautious_rewriteMembers (key : String)
    (change : List Member → Except StorageError (Option (List Member))) :
    (rewriteMembers key change).Cautious (answerIn order) s := by
  refine cautious_look (looks_loadMembers key) ?_
  intro ms _
  refine cautious_known ?_
  intro changed
  cases changed with
  | none => exact (Plan.looks_pure ()).cautious s
  | some ms' => exact (Plan.accepted_ask _ s).cautious

theorem cautious_changeMembers (key : String) (realm : Option String)
    (change : List Member → Except StorageError (Option (List Member))) :
    (changeMembers keys key realm change).Cautious (answerIn order) s := by
  cases realm with
  | none =>
      rw [changeMembers_none]
      exact (cautious_rewriteMembers key change).locked
  | some name =>
      rw [changeMembers_some]
      refine Cautious.locked (cautious_look (looks_requireRealm name) ?_)
      intro _ _
      exact cautious_rewriteMembers key change

/-- A list that cannot be read is no fault of the request. -/
theorem accepted_loadMembers (key : String) :
    (loadMembers key).Accepted (answerIn order) s := by
  refine Plan.accepted_bind (Plan.accepted_ask _ s) ?_
  intro entries s' _ e he
  rw [Plan.run_ofExcept] at he
  rcases hms : Membership.ofEntries entries with fault | ms
  · rw [hms] at he
    cases he
    exact StorageError.isRejection_corrupt ..
  · rw [hms] at he
    cases he

/-- A change that finds no fault with the members is not rejected. -/
theorem accepted_changeMembers (hchange : ∀ ms, ∃ changed, change ms = .ok changed) :
    (changeMembers keys key none change).Accepted (answerIn order) s := by
  rw [changeMembers_none]
  refine Plan.accepted_locked (Plan.accepted_bind (accepted_loadMembers key) ?_)
  intro ms s' _
  obtain ⟨changed, hchanged⟩ := hchange ms
  rw [hchanged]
  cases changed with
  | none => exact Plan.accepted_pure () s'
  | some ms' => exact Plan.accepted_ask _ s'

end Lists

/-! ### Realms and records -/

/-- A record is not rejected where it was found fit. -/
theorem accepted_store {kind : Kind} {a : kind.Record} {text : String}
    (h : (checkStored keys a).Idle (answerIn order) s) :
    (store keys a text).Accepted (answerIn order) s := by
  rw [store_eq]
  refine Plan.accepted_locked (Plan.accepted_bind h.accepted ?_)
  intro _ s' _
  exact Plan.accepted_ask _ s'

/-- **No step towards a realm is rejected** once all members of the realm were found fit. -/
theorem RealmStep.accepted {payload : List UInt8} {realm : Realm} {key : String} {p : Plan Unit}
    (hp : RealmStep keys realm key p) (h : Passed keys order payload realm s) :
    p.Accepted (answerIn order) s := by
  cases hp with
  | store kind ha => exact accepted_store (h.fit kind _ ha)
  | reset kind =>
      refine accepted_changeMembers ?_
      intro ms
      exact ⟨_, rfl⟩

theorem cautious_createRealm (payload : List UInt8) :
    (createRealm keys payload).Cautious (answerIn order) s := by
  rw [createRealm_eq]
  refine cautious_look (@resumable_createRealm keys order payload).looks ?_
  intro realm hcheck
  have hpassed : Passed keys order payload realm s := (checkRealm_iff.mp hcheck).1
  refine Accepted.cautious (Plan.accepted_bind ?_ ?_)
  · refine Plan.accepted_inTurn (P := Passed keys order payload realm) ?_ hpassed
    intro p hp s hs
    obtain ⟨key, hstep⟩ := realmStep_of_mem hp
    exact ⟨hstep.accepted hs, fun s' hrun => hstep.passes hs hrun⟩
  · intro _ s' _
    refine Plan.accepted_bind (Plan.accepted_ask _ s') ?_
    intro _ s'' _
    exact Plan.accepted_pure realm s''

theorem cautious_updateRealm (n : String) (payload : List UInt8) :
    (updateRealm keys n payload).Cautious (answerIn order) s := by
  refine cautious_known ?_
  intro realm
  split_ifs
  · exact cautious_fail _
  · refine cautious_look (looks_requireRealm n) ?_
    intro _ _
    exact cautious_ask realm.withoutMembers

theorem cautious_deleteRealm (n : String) :
    (deleteRealm keys n).Cautious (answerIn order) s := by
  refine cautious_look (looks_requireRealm n) ?_
  intro _ _
  exact (cautious_ask ()).locked.locked

theorem cautious_store {kind : Kind} (a : kind.Record) (text : String) :
    (store keys a text).Cautious (answerIn order) s := by
  rw [store_eq]
  refine Cautious.locked (cautious_look (looks_checkStored a) ?_)
  intro _ _
  exact (Plan.accepted_ask _ s).cautious

theorem cautious_create (kind : Kind) (payload : List UInt8) :
    (create keys kind.Record payload).Cautious (answerIn order) s := by
  refine cautious_known ?_
  intro a
  refine cautious_known ?_
  intro text
  exact (cautious_store a text).map fun _ => a

theorem cautious_update (kind : Kind) (n : String) (payload : List UInt8) :
    (update keys kind.Record n payload).Cautious (answerIn order) s := by
  refine cautious_known ?_
  intro a
  refine cautious_look (looks_get _ n) ?_
  intro stored _
  split_ifs
  · exact cautious_fail _
  · refine cautious_known ?_
    intro _
    refine cautious_known ?_
    intro text
    exact cautious_ask a

/-- A deletion that has found the record is not rejected. -/
theorem cautious_delete (kind : Kind) (n : String) :
    (delete keys kind n).Cautious (answerIn order) s := by
  rw [delete_eq]
  refine cautious_look (looks_findLists kind n) ?_
  intro lists _
  refine Accepted.cautious (Plan.accepted_bind ?_ ?_)
  · refine Plan.accepted_inTurn (P := fun _ => True) ?_ trivial
    intro p hp s _
    obtain ⟨key, -, rfl⟩ := List.mem_map.mp hp
    exact ⟨accepted_changeMembers fun ms => ⟨_, rfl⟩, fun _ _ => trivial⟩
  · intro _ s' _
    refine Plan.accepted_bind (Plan.accepted_ask _ s') ?_
    intro _ s'' _
    exact Plan.accepted_pure () s''

theorem cautious_add (kind : Kind) (r n : String) :
    (add keys kind.Record r n).Cautious (answerIn order) s := by
  refine cautious_look (looks_requireRealm r) ?_
  intro _ _
  refine cautious_look (looks_get _ n) ?_
  intro a _
  exact cautious_changeMembers _ _ _

/-! ### All operations -/

theorem cautious_plan (keys : KeySpace) (order : ScanOrder) (s : MemoryStore) (op : Operation) :
    (plan keys op).Cautious (answerIn order) s := by
  cases op with
  | getRealm n => exact ((looks_getRealm n).cautious s).map _
  | getRealmWithMembers n => exact ((looks_getRealmWithMembers n).cautious s).map _
  | createRealm payload => exact (cautious_createRealm payload).map _
  | updateRealm n payload => exact (cautious_updateRealm n payload).map _
  | deleteRealm n => exact (cautious_deleteRealm n).map fun _ => Answer.done
  | get kind n => exact ((looks_get _ n).cautious s).map _
  | getFrom kind r n => exact ((looks_getFrom _ r n).cautious s).map _
  | getUserById r id => exact ((looks_getUserById r id).cautious s).map _
  | getAllFrom kind r => exact ((looks_getAllFrom _ r).cautious s).map _
  | create kind payload => exact (cautious_create kind payload).map _
  | update kind n payload => exact (cautious_update kind n payload).map _
  | delete kind n => exact (cautious_delete kind n).map fun _ => Answer.done
  | add kind r n => exact (cautious_add kind r n).map fun _ => Answer.done
  | remove kind r n => exact (cautious_changeMembers _ _ _).map fun _ => Answer.done

/-- **A rejected operation changes nothing.**  Whatever the store holds, an operation that runs
alone and is rejected leaves the store as it was, and it has not even written what was there
before: all that it asked of the store was to read. -/
theorem rejected_changes_nothing (keys : KeySpace) (order : ScanOrder) (s s' : MemoryStore)
    (op : Operation) (e : StorageError)
    (h : (plan keys op).run (answerIn order) s = (.error e, s')) (he : e.isRejection = true) :
    s' = s ∧ ∀ r ∈ (plan keys op).requests (answerIn order) s, r.isRead = true := by
  have hreads : ∀ r ∈ (plan keys op).requests (answerIn order) s, r.isRead = true :=
    cautious_plan keys order s op e (congrArg Prod.fst h) he
  refine ⟨?_, hreads⟩
  rw [← Plan.run_store_of_reads (fun _ _ => answerIn_of_isRead) hreads, h]

/-- A realm with two clients, of which the first is new. -/
def rivalRealm : Operation :=
  .createRealm (Utf8.ofString ("\x7b\"name\":\"acme\",\"clients\":[\x7b\"name\":\"app\"," ++
    "\"id\":\"00000000-0000-0000-0000-000000000001\"\x7d,\x7b\"name\":\"web\"," ++
    "\"id\":\"00000000-0000-0000-0000-000000000001\"\x7d]\x7d"))

/-- A store that holds the second client with another identifier. -/
def rivalStore : MemoryStore :=
  MemoryStore.empty.put (KeySpace.default.record .client "web")
    (.text "\x7b\"name\":\"web\",\"id\":\"00000000-0000-0000-0000-000000000002\"\x7d")

/-- The realm is rejected for its second client, and the first is not stored either. -/
theorem rejected_changes_nothing_acme :
    let e := StorageError.renameRejected "Client" "00000000-0000-0000-0000-000000000002"
      "00000000-0000-0000-0000-000000000001"
    ∃ s', ((plan .default rivalRealm).run (answerIn .rising) rivalStore = (.error e, s') ∧
        e.isRejection = true) ∧
      s' = rivalStore ∧
      ∀ r ∈ (plan .default rivalRealm).requests (answerIn .rising) rivalStore, r.isRead = true := by
  intro e
  have hrejected : ((plan .default rivalRealm).run (answerIn .rising) rivalStore).1.map
      (fun _ => ()) = .error e := by decide +kernel
  rcases hrun : (plan .default rivalRealm).run (answerIn .rising) rivalStore with ⟨_ | answer, s'⟩
  · rw [hrun] at hrejected
    cases hrejected
    exact ⟨s', ⟨rfl, rfl⟩,
      rejected_changes_nothing .default .rising rivalStore s' rivalRealm e hrun rfl⟩
  · rw [hrun] at hrejected
    cases hrejected

end IdentityStore.Keyed
