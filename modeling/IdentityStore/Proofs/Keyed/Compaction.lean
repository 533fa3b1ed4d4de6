/-
Lists of many entries are as good as lists of one.

The lists of a namespace may have been written entry by entry.  Operations take the entries of
a list together wherever they read one, and touch the keys of lists in no other way than as
lists: each request is about a record, about a realm whose name is none of a list, or about a
list.  So every plan gathers, and two stores of one compact form answer all operations alike,
however long they go on and in whatever order they list their keys: `compaction_unseen`.

Some operations write a list anew and some leave it as it is, because nothing in it changed.
The stores differ afterwards only where they differed before, in how the same members are
spelled.
-/
import IdentityStore.Proofs.Directory
import IdentityStore.Proofs.Keyed.Representation
import IdentityStore.Proofs.Plan.Gathering

namespace IdentityStore

/-! ### Keys of lists -/

namespace KeySpace

variable (keys : KeySpace)

/-- The key is one of a membership list. -/
def IsMembers (key : String) : Prop := ∃ kind r, key = keys.members kind r

instance : DecidablePred keys.IsMembers := fun key =>
  decidable_of_iff (Glob.isMatch (keys.membersPattern .client) key = true ∨
      Glob.isMatch (keys.membersPattern .user) key = true) <| by
    rw [isMatch_membersPattern_iff, isMatch_membersPattern_iff]
    constructor
    · rintro (h | h)
      · exact ⟨.client, h⟩
      · exact ⟨.user, h⟩
    · rintro ⟨kind, h⟩
      cases kind
      · exact .inl h
      · exact .inr h

theorem not_isMembers_record (kind : Kind) (n : String) : ¬ keys.IsMembers (keys.record kind n) :=
  fun ⟨_, _, h⟩ => keys.record_ne_members h

theorem not_isMembers_realm {n : String} (h : isRealmName n = true) :
    ¬ keys.IsMembers (keys.realm n) :=
  fun ⟨_, _, heq⟩ => keys.realm_ne_members h heq

end KeySpace

namespace Keyed

variable {keys : KeySpace} {α : Type} [Principal α]

/-! ### Look-ups -/

variable (keys) in
/-- The plan reads the lists of a namespace only for what their entries come to. -/
abbrev Gathers {β : Type} (p : Plan β) : Prop := p.Gathers keys.IsMembers

theorem gathers_fetchRealm (n : String) : Gathers keys (fetchRealm keys n) := by
  unfold fetchRealm
  split_ifs with hn
  · refine Plan.gathers_bind (Plan.gathers_ask (keys.not_isMembers_realm hn) fun _ _ h => h) ?_
    intro text
    cases text with
    | none => exact Plan.gathers_pure _
    | some text =>
        dsimp only
        split
        · exact Plan.gathers_pure _
        · exact Plan.gathers_fail _
  · exact Plan.gathers_pure _

theorem gathers_realmExists (n : String) : Gathers keys (realmExists keys n) := by
  unfold realmExists
  split_ifs
  · exact Plan.gathers_ask trivial fun _ _ h => h
  · exact Plan.gathers_pure _

theorem gathers_requireRealm (n : String) : Gathers keys (requireRealm keys n) := by
  refine Plan.gathers_bind (gathers_realmExists n) ?_
  intro found
  cases found
  · exact Plan.gathers_fail _
  · exact Plan.gathers_pure _

theorem gathers_getRealm (n : String) : Gathers keys (getRealm keys n) := by
  refine Plan.gathers_bind (gathers_fetchRealm n) ?_
  intro realm
  cases realm with
  | none => exact Plan.gathers_fail _
  | some realm => exact Plan.gathers_pure _

variable (α) in
theorem gathers_fetch (n : String) : Gathers keys (fetch keys α n) := by
  refine Plan.gathers_bind (Plan.gathers_ask (keys.not_isMembers_record _ n) fun _ _ h => h) ?_
  intro text
  cases text with
  | none => exact Plan.gathers_pure _
  | some text => exact Plan.gathers_ofExcept _

variable (α) in
theorem gathers_get (n : String) : Gathers keys (get keys α n) := by
  refine Plan.gathers_bind (gathers_fetch α n) ?_
  intro found
  cases found with
  | none => exact Plan.gathers_fail _
  | some a => exact Plan.gathers_pure _

/-- **The one place where a list is read**: it goes on with what the entries come to. -/
theorem gathers_loadMembers (key : String) : Gathers keys (loadMembers key) := by
  refine ⟨trivial, fun a b h => ?_, fun reply => ?_⟩
  · have h : a.map Membership.ofEntries = b.map Membership.ofEntries := h
    cases a <;> cases b <;> simp only [Except.map, reduceCtorEq, Except.error.injEq,
      Except.ok.injEq] at h
    · rw [h]
    · simp only [Except.mapError, Plan.bind_done_ok, h]
  · cases reply <;> trivial

theorem gathers_membersOf (kind : Kind) (r : String) : Gathers keys (membersOf keys kind r) :=
  Plan.gathers_bind (gathers_requireRealm r) fun _ => gathers_loadMembers _

variable (α) in
theorem gathers_getFrom (r n : String) : Gathers keys (getFrom keys α r n) := by
  refine Plan.gathers_bind (gathers_membersOf _ r) ?_
  intro ms
  split
  · exact Plan.gathers_fail _
  · exact gathers_get α _

theorem gathers_getUserById (r : String) (id : Uuid) : Gathers keys (getUserById keys r id) := by
  refine Plan.gathers_bind (gathers_membersOf _ r) ?_
  intro ms
  split
  · exact Plan.gathers_fail _
  · exact gathers_get User _

variable (α) in
theorem gathers_getAllFrom (r : String) : Gathers keys (getAllFrom keys α r) := by
  refine Plan.gathers_bind (gathers_membersOf _ r) ?_
  intro ms
  split_ifs
  · exact Plan.gathers_pure _
  · refine Plan.gathers_bind (Plan.gathers_ask (fun key hkey => ?_) fun _ _ h => h) ?_
    · obtain ⟨m, -, rfl⟩ := List.mem_map.mp hkey
      exact keys.not_isMembers_record _ _
    · intro texts
      refine Plan.gathers_bind (Plan.gathers_ofExcept _) ?_
      intro ⟨records, missing⟩
      dsimp only
      split_ifs
      · exact Plan.gathers_pure _
      · exact Plan.gathers_fail _

theorem gathers_getRealmWithMembers (n : String) : Gathers keys (getRealmWithMembers keys n) :=
  Plan.gathers_bind (gathers_getRealm n) fun _ =>
    Plan.gathers_bind (gathers_getAllFrom Client n) fun _ =>
      Plan.gathers_bind (gathers_getAllFrom User n) fun _ => Plan.gathers_pure _

/-! ### Changes -/

theorem gathers_changeMembers (key : String) (realm : Option String)
    (change : List Member → Except StorageError (Option (List Member))) :
    Gathers keys (changeMembers keys key realm change) := by
  have hrewrite : Gathers keys (rewriteMembers key change) := by
    refine Plan.gathers_bind (gathers_loadMembers key) ?_
    intro ms
    refine Plan.gathers_bind (Plan.gathers_ofExcept _) ?_
    intro changed
    cases changed with
    | none => exact Plan.gathers_pure _
    | some ms' => exact Plan.gathers_ask trivial fun _ _ h => h
  cases realm with
  | none =>
      rw [changeMembers_none]
      exact Plan.gathers_locked hrewrite
  | some name =>
      rw [changeMembers_some]
      exact Plan.gathers_locked (Plan.gathers_bind (gathers_requireRealm name) fun _ => hrewrite)

theorem gathers_removeEverywhere (n : String) (lists : List String) :
    Gathers keys (removeEverywhere keys n lists) := by
  induction lists with
  | nil => exact Plan.gathers_pure _
  | cons key rest ih => exact Plan.gathers_bind (gathers_changeMembers key none _) fun _ => ih

theorem gathers_store (a : α) (text : String) : Gathers keys (store keys a text) :=
  Plan.gathers_locked <| Plan.gathers_bind (gathers_fetch α _) fun _ =>
    Plan.gathers_bind (Plan.gathers_ofExcept _) fun _ => Plan.gathers_ask trivial fun _ _ h => h

theorem gathers_storeAll (as : List α) : Gathers keys (storeAll keys as) := by
  induction as with
  | nil => exact Plan.gathers_pure _
  | cons a rest ih => exact Plan.gathers_bind (gathers_store a _) fun _ => ih

theorem gathers_checkNewMembers (seen : List String) (as : List α) :
    Gathers keys (checkNewMembers keys seen as) := by
  induction as generalizing seen with
  | nil => exact Plan.gathers_pure _
  | cons a rest ih =>
      unfold checkNewMembers
      dsimp only
      split_ifs
      · exact Plan.gathers_fail _
      · exact Plan.gathers_bind (gathers_fetch α _) fun _ =>
          Plan.gathers_bind (Plan.gathers_ofExcept _) fun _ => ih _

variable (α) in
theorem gathers_create (payload : List UInt8) : Gathers keys (create keys α payload) :=
  Plan.gathers_bind (Plan.gathers_ofExcept _) fun a =>
    Plan.gathers_bind (Plan.gathers_ofExcept _) fun text =>
      Plan.gathers_bind (gathers_store a text) fun _ => Plan.gathers_pure _

variable (α) in
theorem gathers_update (n : String) (payload : List UInt8) :
    Gathers keys (update keys α n payload) := by
  refine Plan.gathers_bind (Plan.gathers_ofExcept _) ?_
  intro a
  refine Plan.gathers_bind (gathers_get α n) ?_
  intro stored
  split_ifs
  · exact Plan.gathers_fail _
  · exact Plan.gathers_bind (Plan.gathers_ofExcept _) fun _ =>
      Plan.gathers_bind (Plan.gathers_ofExcept _) fun _ =>
        Plan.gathers_bind (Plan.gathers_ask trivial fun _ _ h => h) fun _ => Plan.gathers_pure _

theorem gathers_delete (kind : Kind) (n : String) : Gathers keys (delete keys kind n) := by
  refine Plan.gathers_bind (Plan.gathers_ask trivial fun _ _ h => h) ?_
  intro found
  cases found
  · exact Plan.gathers_fail _
  · exact Plan.gathers_bind (Plan.gathers_ask trivial fun _ _ h => h) fun lists =>
      Plan.gathers_bind (gathers_removeEverywhere n lists) fun _ =>
        Plan.gathers_bind (Plan.gathers_ask trivial fun _ _ h => h) fun _ => Plan.gathers_pure _

variable (α) in
theorem gathers_add (r n : String) : Gathers keys (add keys α r n) :=
  Plan.gathers_bind (gathers_requireRealm r) fun _ =>
    Plan.gathers_bind (gathers_get α n) fun _ => gathers_changeMembers _ _ _

theorem gathers_createRealm (payload : List UInt8) : Gathers keys (createRealm keys payload) := by
  refine Plan.gathers_bind (Plan.gathers_ofExcept _) ?_
  intro realm
  refine Plan.gathers_bind (Plan.gathers_ofExcept _) ?_
  intro _
  refine Plan.gathers_bind (gathers_realmExists _) ?_
  intro found
  split_ifs
  · exact Plan.gathers_fail _
  · exact Plan.gathers_bind (gathers_checkNewMembers [] _) fun _ =>
      Plan.gathers_bind (gathers_checkNewMembers [] _) fun _ =>
        Plan.gathers_bind (gathers_storeAll _) fun _ =>
          Plan.gathers_bind (gathers_storeAll _) fun _ =>
            Plan.gathers_bind (gathers_changeMembers _ _ _) fun _ =>
              Plan.gathers_bind (gathers_changeMembers _ _ _) fun _ =>
                Plan.gathers_bind (Plan.gathers_ask trivial fun _ _ h => h) fun _ =>
                  Plan.gathers_pure _

theorem gathers_updateRealm (n : String) (payload : List UInt8) :
    Gathers keys (updateRealm keys n payload) := by
  refine Plan.gathers_bind (Plan.gathers_ofExcept _) ?_
  intro realm
  split_ifs
  · exact Plan.gathers_fail _
  · exact Plan.gathers_bind (gathers_requireRealm n) fun _ =>
      Plan.gathers_bind (Plan.gathers_ask trivial fun _ _ h => h) fun _ => Plan.gathers_pure _

theorem gathers_deleteRealm (n : String) : Gathers keys (deleteRealm keys n) :=
  Plan.gathers_bind (gathers_requireRealm n) fun _ =>
    Plan.gathers_locked <| Plan.gathers_locked <|
      Plan.gathers_bind (Plan.gathers_ask trivial fun _ _ h => h) fun _ => Plan.gathers_pure _

/-- **Every operation takes the entries of lists together.** -/
theorem gathers_plan (op : Operation) : Gathers keys (plan keys op) := by
  have hanswer : ∀ {β : Type} {p : Plan β} {f : β → Answer}, Gathers keys p →
      Gathers keys (do return f (← p) : Plan Answer) :=
    fun hp => Plan.gathers_bind hp fun _ => Plan.gathers_pure _
  cases op with
  | getRealm n => exact hanswer (gathers_getRealm n)
  | getRealmWithMembers n => exact hanswer (gathers_getRealmWithMembers n)
  | createRealm payload => exact hanswer (gathers_createRealm payload)
  | updateRealm n payload => exact hanswer (gathers_updateRealm n payload)
  | deleteRealm n => exact hanswer (gathers_deleteRealm n)
  | get kind n => exact hanswer (gathers_get kind.Record n)
  | getFrom kind r n => exact hanswer (gathers_getFrom kind.Record r n)
  | getUserById r id => exact hanswer (gathers_getUserById r id)
  | getAllFrom kind r => exact hanswer (gathers_getAllFrom kind.Record r)
  | create kind payload => exact hanswer (gathers_create kind.Record payload)
  | update kind n payload => exact hanswer (gathers_update kind.Record n payload)
  | delete kind n => exact hanswer (gathers_delete kind n)
  | add kind r n => exact hanswer (gathers_add kind.Record r n)
  | remove kind r n => exact hanswer (gathers_changeMembers _ _ _)

/-! ### Histories -/

variable {order : ScanOrder} {s s' : MemoryStore}

/-- The store after operations that come one after the other. -/
def storeAfter (keys : KeySpace) (order : ScanOrder) (s : MemoryStore) (ops : List Operation) :
    MemoryStore :=
  ops.foldl (fun s op => (performIn keys order s op).2) s

/-- Stores of one compact form answer alike for ever. -/
theorem answers_of_compact_eq (h : s'.compact keys.IsMembers = s.compact keys.IsMembers)
    (ops : List Operation) :
    answers (performIn keys order) s' ops = answers (performIn keys order) s ops ∧
      (storeAfter keys order s' ops).compact keys.IsMembers
        = (storeAfter keys order s ops).compact keys.IsMembers := by
  induction ops generalizing s s' with
  | nil => exact ⟨rfl, h⟩
  | cons op rest ih =>
      obtain ⟨hanswer, hafter⟩ := (gathers_plan op).run_eq order h
      obtain ⟨hanswers, hstore⟩ := ih hafter
      exact ⟨congrArg₂ List.cons hanswer hanswers, hstore⟩

/-- **No operations tell a store from its compact form**, whatever it holds: all answers are
the same, and so are the compact forms of what the operations leave. -/
theorem compaction_unseen (keys : KeySpace) (order : ScanOrder) (s : MemoryStore)
    (ops : List Operation) :
    answers (performIn keys order) (s.compact keys.IsMembers) ops
        = answers (performIn keys order) s ops ∧
      (storeAfter keys order (s.compact keys.IsMembers) ops).compact keys.IsMembers
        = (storeAfter keys order s ops).compact keys.IsMembers :=
  answers_of_compact_eq (MemoryStore.compact_compact s) ops

end Keyed

end IdentityStore
