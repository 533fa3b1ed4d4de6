/-
What operations touch.

Whatever an operation is answered, the keys that it goes on to name are keys of its namespace:
they are made of names that it was given or has read, and each name has its key.  The deletion
of a record is the one exception, since it takes the keys of lists from a scan, so that they
are what the store says they are.
-/
import IdentityStore.Proofs.Keyed.Representation
import IdentityStore.Proofs.Plan.Within

namespace IdentityStore.Keyed

variable {keys : KeySpace} {α : Type} [Principal α]

/-! ### Plans of a namespace -/

theorem within_fetchRealm (n : String) : (fetchRealm keys n).Within keys.Owns := by
  unfold fetchRealm
  split_ifs
  · refine Plan.within_bind (Plan.within_ask (keys.owns_realm n)) ?_
    intro text
    cases text with
    | none => exact Plan.within_pure _
    | some text =>
        dsimp only
        split
        · exact Plan.within_pure _
        · exact Plan.within_fail _
  · exact Plan.within_pure _

theorem within_realmExists (n : String) : (realmExists keys n).Within keys.Owns := by
  unfold realmExists
  split_ifs
  · exact Plan.within_ask (keys.owns_realm n)
  · exact Plan.within_pure _

theorem within_requireRealm (n : String) : (requireRealm keys n).Within keys.Owns := by
  refine Plan.within_bind (within_realmExists n) ?_
  intro found
  cases found
  · exact Plan.within_fail _
  · exact Plan.within_pure _

theorem within_getRealm (n : String) : (getRealm keys n).Within keys.Owns := by
  refine Plan.within_bind (within_fetchRealm n) ?_
  intro realm
  cases realm with
  | none => exact Plan.within_fail _
  | some realm => exact Plan.within_pure _

variable (α) in
theorem within_fetch (n : String) : (fetch keys α n).Within keys.Owns := by
  refine Plan.within_bind (Plan.within_ask (keys.owns_record _ n)) ?_
  intro text
  cases text with
  | none => exact Plan.within_pure _
  | some text => exact Plan.within_ofExcept _

variable (α) in
theorem within_get (n : String) : (get keys α n).Within keys.Owns := by
  refine Plan.within_bind (within_fetch α n) ?_
  intro found
  cases found with
  | none => exact Plan.within_fail _
  | some a => exact Plan.within_pure _

theorem within_loadMembers (kind : Kind) (r : String) :
    (loadMembers (keys.members kind r)).Within keys.Owns :=
  Plan.within_bind (Plan.within_ask (keys.owns_members kind r)) fun _ => Plan.within_ofExcept _

theorem within_membersOf (kind : Kind) (r : String) : (membersOf keys kind r).Within keys.Owns :=
  Plan.within_bind (within_requireRealm r) fun _ => within_loadMembers kind r

variable (α) in
theorem within_getFrom (r n : String) : (getFrom keys α r n).Within keys.Owns := by
  refine Plan.within_bind (within_membersOf _ r) ?_
  intro ms
  split
  · exact Plan.within_fail _
  · exact within_get α _

theorem within_getUserById (r : String) (id : Uuid) : (getUserById keys r id).Within keys.Owns := by
  refine Plan.within_bind (within_membersOf _ r) ?_
  intro ms
  split
  · exact Plan.within_fail _
  · exact within_get User _

variable (α) in
theorem within_getAllFrom (r : String) : (getAllFrom keys α r).Within keys.Owns := by
  refine Plan.within_bind (within_membersOf _ r) ?_
  intro ms
  split_ifs
  · exact Plan.within_pure _
  · refine Plan.within_bind (Plan.within_ask fun key hkey => ?_) ?_
    · obtain ⟨m, -, rfl⟩ := List.mem_map.mp hkey
      exact keys.owns_record _ _
    · intro texts
      refine Plan.within_bind (Plan.within_ofExcept _) ?_
      intro ⟨records, missing⟩
      dsimp only
      split_ifs
      · exact Plan.within_pure _
      · exact Plan.within_fail _

theorem within_getRealmWithMembers (n : String) : (getRealmWithMembers keys n).Within keys.Owns :=
  Plan.within_bind (within_getRealm n) fun _ =>
    Plan.within_bind (within_getAllFrom Client n) fun _ =>
      Plan.within_bind (within_getAllFrom User n) fun _ => Plan.within_pure _

theorem within_changeMembers (kind : Kind) (r : String) (realm : Option String)
    (change : List Member → Except StorageError (Option (List Member))) :
    (changeMembers keys (keys.members kind r) realm change).Within keys.Owns := by
  have hrewrite : (rewriteMembers (keys.members kind r) change).Within keys.Owns := by
    refine Plan.within_bind (within_loadMembers kind r) ?_
    intro ms
    refine Plan.within_bind (Plan.within_ofExcept _) ?_
    intro changed
    cases changed with
    | none => exact Plan.within_pure _
    | some ms' => exact Plan.within_ask (keys.owns_members kind r)
  cases realm with
  | none =>
      rw [changeMembers_none]
      exact Plan.within_locked hrewrite
  | some name =>
      rw [changeMembers_some]
      exact Plan.within_locked (Plan.within_bind (within_requireRealm name) fun _ => hrewrite)

theorem within_store (a : α) (text : String) : (store keys a text).Within keys.Owns :=
  Plan.within_locked <| Plan.within_bind (within_fetch α _) fun _ =>
    Plan.within_bind (Plan.within_ofExcept _) fun _ => Plan.within_ask (keys.owns_record _ _)

theorem within_storeAll (as : List α) : (storeAll keys as).Within keys.Owns := by
  induction as with
  | nil => exact Plan.within_pure _
  | cons a rest ih => exact Plan.within_bind (within_store a _) fun _ => ih

theorem within_checkNewMembers (seen : List String) (as : List α) :
    (checkNewMembers keys seen as).Within keys.Owns := by
  induction as generalizing seen with
  | nil => exact Plan.within_pure _
  | cons a rest ih =>
      unfold checkNewMembers
      dsimp only
      split_ifs
      · exact Plan.within_fail _
      · exact Plan.within_bind (within_fetch α _) fun _ =>
          Plan.within_bind (Plan.within_ofExcept _) fun _ => ih _

variable (α) in
theorem within_create (payload : List UInt8) : (create keys α payload).Within keys.Owns :=
  Plan.within_bind (Plan.within_ofExcept _) fun a =>
    Plan.within_bind (Plan.within_ofExcept _) fun text =>
      Plan.within_bind (within_store a text) fun _ => Plan.within_pure _

variable (α) in
theorem within_update (n : String) (payload : List UInt8) :
    (update keys α n payload).Within keys.Owns := by
  refine Plan.within_bind (Plan.within_ofExcept _) ?_
  intro a
  refine Plan.within_bind (within_get α n) ?_
  intro stored
  split_ifs
  · exact Plan.within_fail _
  · exact Plan.within_bind (Plan.within_ofExcept _) fun _ =>
      Plan.within_bind (Plan.within_ofExcept _) fun _ =>
        Plan.within_bind (Plan.within_ask (keys.owns_record _ n)) fun _ => Plan.within_pure _

variable (α) in
theorem within_add (r n : String) : (add keys α r n).Within keys.Owns :=
  Plan.within_bind (within_requireRealm r) fun _ =>
    Plan.within_bind (within_get α n) fun _ => within_changeMembers _ r _ _

theorem within_createRealm (payload : List UInt8) : (createRealm keys payload).Within keys.Owns := by
  refine Plan.within_bind (Plan.within_ofExcept _) ?_
  intro realm
  refine Plan.within_bind (Plan.within_ofExcept _) ?_
  intro _
  refine Plan.within_bind (within_realmExists _) ?_
  intro found
  split_ifs
  · exact Plan.within_fail _
  · exact Plan.within_bind (within_checkNewMembers [] _) fun _ =>
      Plan.within_bind (within_checkNewMembers [] _) fun _ =>
        Plan.within_bind (within_storeAll _) fun _ =>
          Plan.within_bind (within_storeAll _) fun _ =>
            Plan.within_bind (within_changeMembers _ _ _ _) fun _ =>
              Plan.within_bind (within_changeMembers _ _ _ _) fun _ =>
                Plan.within_bind (Plan.within_ask (keys.owns_realm _)) fun _ => Plan.within_pure _

theorem within_updateRealm (n : String) (payload : List UInt8) :
    (updateRealm keys n payload).Within keys.Owns := by
  refine Plan.within_bind (Plan.within_ofExcept _) ?_
  intro realm
  split_ifs
  · exact Plan.within_fail _
  · exact Plan.within_bind (within_requireRealm n) fun _ =>
      Plan.within_bind (Plan.within_ask (keys.owns_realm _)) fun _ => Plan.within_pure _

theorem within_deleteRealm (n : String) : (deleteRealm keys n).Within keys.Owns := by
  have hkeys : (Request.delete [keys.realm n, keys.members .client n, keys.members .user n]).Within
      keys.Owns := by
    intro key hkey
    simp only [List.mem_cons, List.not_mem_nil, or_false] at hkey
    rcases hkey with rfl | rfl | rfl
    · exact keys.owns_realm n
    · exact keys.owns_members .client n
    · exact keys.owns_members .user n
  refine Plan.within_bind (within_requireRealm n) ?_
  intro _
  exact Plan.within_locked (Plan.within_locked
    (Plan.within_bind (Plan.within_ask hkeys) fun _ => Plan.within_pure _))

/-- All operations but the deletion of a record, which scans, name the keys that they touch. -/
theorem within_plan {op : Operation} (hop : ∀ kind n, op ≠ .delete kind n) :
    (plan keys op).Within keys.Owns := by
  have hanswer : ∀ {β : Type} {p : Plan β} {f : β → Answer}, p.Within keys.Owns →
      (do return f (← p) : Plan Answer).Within keys.Owns :=
    fun hp => Plan.within_bind hp fun _ => Plan.within_pure _
  cases op with
  | getRealm n => exact hanswer (within_getRealm n)
  | getRealmWithMembers n => exact hanswer (within_getRealmWithMembers n)
  | createRealm payload => exact hanswer (within_createRealm payload)
  | updateRealm n payload => exact hanswer (within_updateRealm n payload)
  | deleteRealm n => exact hanswer (within_deleteRealm n)
  | get kind n => exact hanswer (within_get kind.Record n)
  | getFrom kind r n => exact hanswer (within_getFrom kind.Record r n)
  | getUserById r id => exact hanswer (within_getUserById r id)
  | getAllFrom kind r => exact hanswer (within_getAllFrom kind.Record r)
  | create kind payload => exact hanswer (within_create kind.Record payload)
  | update kind n payload => exact hanswer (within_update kind.Record n payload)
  | delete kind n => exact absurd rfl (hop kind n)
  | add kind r n => exact hanswer (within_add kind.Record r n)
  | remove kind r n => exact hanswer (within_changeMembers kind r _ _)

end IdentityStore.Keyed
