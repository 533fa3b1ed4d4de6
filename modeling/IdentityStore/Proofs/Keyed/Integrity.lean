/-
Members that have records.

A list names members by name and identifier, and the store keeps no edge between a list
and a record.  That every listed member has a record of its identifier rests on the order
of the writes alone: records are stored before lists name them, and names leave all lists
before their record is removed.  `Linked` says so of a store, whether or not the realm of a
list has a document.

Operations that run one after the other keep it, whichever calls fail on the way; side by
side they need not.  So the proofs follow each plan from a store that is known:
`safe_plan`, and for whole histories `members_have_records`.
-/
import IdentityStore.Proofs.Keyed.Lookup
import IdentityStore.Proofs.Plan.Cut

namespace IdentityStore.Keyed

open IdentityStore.Membership (names)
open MemoryStore (answerIn answerIn_of_isRead)

variable (keys : KeySpace)

/-! ### Links -/

/-- There is a record of the member's name and identifier. -/
def HasRecord (s : MemoryStore) (kind : Kind) (m : Member) : Prop :=
  ∃ a, recordAt keys s kind m.name = some a ∧ Principal.id a = m.id

/-- What the store holds has its shape, and every listed member has a record. -/
structure Linked (s : MemoryStore) : Prop where
  shaped : Shaped keys s
  links : ∀ kind r, ∀ m ∈ membersAt keys s kind r, HasRecord keys s kind m

variable {keys} {order : ScanOrder} {s s' : MemoryStore} {kind : Kind} {n r : String}

theorem linked_empty : Linked keys .empty where
  shaped := shaped_empty
  links kind r m hm := by
    rw [membersAt, MemoryStore.getElem?_empty] at hm
    cases hm

theorem HasRecord.congr {m : Member} (h : HasRecord keys s kind m)
    (heq : recordAt keys s' kind m.name = recordAt keys s kind m.name) :
    HasRecord keys s' kind m := by
  obtain ⟨a, ha, hid⟩ := h
  exact ⟨a, heq.trans ha, hid⟩

/-- A new version of a record keeps links. -/
theorem HasRecord.putRecord {kind' : Kind} {m : Member} (h : HasRecord keys s kind' m)
    {a : kind.Record} {text : String} (ha : Principal.ofPayload (Utf8.ofString text) = .ok a)
    (hid : ∀ b, recordAt keys s kind n = some b → Principal.id b = Principal.id a) :
    HasRecord keys (putRecord keys s kind n text) kind' m := by
  by_cases hsame : kind' = kind ∧ m.name = n
  · obtain ⟨rfl, rfl⟩ := hsame
    obtain ⟨b, hb, hbid⟩ := h
    exact ⟨a, recordAt_putRecord_self ha, (hid b hb).symm.trans hbid⟩
  · exact h.congr (recordAt_putRecord_ne fun hkind hname => hsame ⟨hkind, hname⟩)

theorem Linked.putRecord (h : Linked keys s) {a : kind.Record} {text : String}
    (ha : Principal.ofPayload (Utf8.ofString text) = .ok a)
    (hid : ∀ b, recordAt keys s kind (Principal.name a) = some b →
      Principal.id b = Principal.id a) :
    Linked keys (putRecord keys s kind (Principal.name a) text) where
  shaped := h.shaped.putRecord ha
  links kind' r m hm := by
    rw [membersAt_putRecord] at hm
    exact (h.links kind' r m hm).putRecord ha hid

theorem Linked.putMembers (h : Linked keys s) {ms : List Member} (hms : (names ms).Nodup)
    (hlinks : ∀ m ∈ ms, HasRecord keys s kind m) :
    Linked keys (putMembers keys s kind r ms) where
  shaped := h.shaped.putMembers hms
  links kind' r' m hm := by
    refine HasRecord.congr (s := s) ?_ (recordAt_putMembers kind' m.name)
    by_cases hsame : kind' = kind ∧ r' = r
    · obtain ⟨rfl, rfl⟩ := hsame
      rw [membersAt_putMembers_self] at hm
      exact hlinks m hm
    · rw [membersAt_putMembers_ne fun hkind hr => hsame ⟨hkind, hr⟩] at hm
      exact h.links kind' r' m hm

theorem Linked.putDocument (h : Linked keys s) {realm : Realm}
    (hname : isRealmName realm.name = true) : Linked keys (putDocument keys s realm) where
  shaped := h.shaped.putDocument hname
  links kind r m hm := by
    rw [membersAt_putDocument hname] at hm
    exact (h.links kind r m hm).congr (recordAt_putDocument kind m.name)

/-- A record that no list names can be removed. -/
theorem Linked.dropRecord (h : Linked keys s) (hn : ∀ r, n ∉ names (membersAt keys s kind r)) :
    Linked keys (s.drop [keys.record kind n]) where
  shaped := h.shaped.drop _
  links kind' r m hm := by
    rw [membersAt_drop (by simp [keys.record_ne_members.symm])] at hm
    refine (h.links kind' r m hm).congr (recordAt_drop fun hmem => ?_)
    obtain ⟨rfl, rfl⟩ := keys.record_inj (List.mem_singleton.mp hmem)
    exact hn r (List.mem_map_of_mem hm)

/-- A realm can be removed with its lists. -/
theorem Linked.dropRealm (h : Linked keys s) (n : String) :
    Linked keys (s.drop [keys.realm n, keys.members .client n, keys.members .user n]) where
  shaped := h.shaped.drop _
  links kind r m hm := by
    have hrecord : keys.record kind m.name ∉
        [keys.realm n, keys.members .client n, keys.members .user n] := by
      simp [keys.record_ne_realm, keys.record_ne_members]
    refine HasRecord.congr (s := s) ?_ (recordAt_drop hrecord)
    by_cases hmem : keys.members kind r ∈
        [keys.realm n, keys.members .client n, keys.members .user n]
    · rw [membersAt_drop_of_mem hmem] at hm
      cases hm
    · rw [membersAt_drop hmem] at hm
      exact h.links kind r m hm

/-! ### Looking up -/

theorem looks_fetchRealm (n : String) : (fetchRealm keys n).Looks := by
  unfold fetchRealm
  split_ifs
  · refine Plan.looks_bind (Plan.looks_ask rfl) ?_
    intro t
    cases t with
    | none => exact Plan.looks_pure _
    | some text =>
        dsimp only
        split
        · exact Plan.looks_pure _
        · exact Plan.looks_fail _
  · exact Plan.looks_pure _

theorem looks_realmExists (n : String) : (realmExists keys n).Looks := by
  unfold realmExists
  split_ifs
  · exact Plan.looks_ask rfl
  · exact Plan.looks_pure _

theorem looks_requireRealm (n : String) : (requireRealm keys n).Looks := by
  refine Plan.looks_bind (looks_realmExists n) ?_
  intro found
  cases found
  · exact Plan.looks_fail _
  · exact Plan.looks_pure _

theorem looks_getRealm (n : String) : (getRealm keys n).Looks := by
  refine Plan.looks_bind (looks_fetchRealm n) ?_
  intro realm
  cases realm with
  | none => exact Plan.looks_fail _
  | some r => exact Plan.looks_pure _

section

variable (α : Type) [Principal α]

theorem looks_fetch (n : String) : (fetch keys α n).Looks := by
  refine Plan.looks_bind (Plan.looks_ask rfl) ?_
  intro t
  cases t with
  | none => exact Plan.looks_pure _
  | some text => exact Plan.looks_ofExcept _

theorem looks_get (n : String) : (get keys α n).Looks := by
  refine Plan.looks_bind (looks_fetch α n) ?_
  intro found
  cases found with
  | none => exact Plan.looks_fail _
  | some a => exact Plan.looks_pure _

theorem looks_loadMembers (key : String) : (loadMembers key).Looks :=
  Plan.looks_bind (Plan.looks_ask rfl) fun _ => Plan.looks_ofExcept _

theorem looks_membersOf (kind : Kind) (r : String) : (membersOf keys kind r).Looks :=
  Plan.looks_bind (looks_requireRealm r) fun _ => looks_loadMembers _

theorem looks_getFrom (r n : String) : (getFrom keys α r n).Looks := by
  refine Plan.looks_bind (looks_membersOf _ r) ?_
  intro ms
  split
  · exact Plan.looks_fail _
  · exact looks_get α _

theorem looks_getUserById (r : String) (id : Uuid) : (getUserById keys r id).Looks := by
  refine Plan.looks_bind (looks_membersOf _ r) ?_
  intro ms
  split
  · exact Plan.looks_fail _
  · exact looks_get User _

theorem looks_getAllFrom (r : String) : (getAllFrom keys α r).Looks := by
  refine Plan.looks_bind (looks_membersOf _ r) ?_
  intro ms
  split_ifs
  · exact Plan.looks_pure _
  · refine Plan.looks_bind (Plan.looks_ask rfl) ?_
    intro texts
    refine Plan.looks_bind (Plan.looks_ofExcept _) ?_
    rintro ⟨records, missing⟩
    dsimp only
    split_ifs
    · exact Plan.looks_pure _
    · exact Plan.looks_fail _

theorem looks_checkNewMembers (seen : List String) (as : List α) :
    (checkNewMembers keys seen as).Looks := by
  induction as generalizing seen with
  | nil => exact Plan.looks_pure _
  | cons a rest ih =>
      unfold checkNewMembers
      dsimp only
      split_ifs
      · exact Plan.looks_fail _
      · exact Plan.looks_bind (looks_fetch α _) fun _ =>
          Plan.looks_bind (Plan.looks_ofExcept _) fun _ => ih _

end

theorem looks_getRealmWithMembers (n : String) : (getRealmWithMembers keys n).Looks :=
  Plan.looks_bind (looks_getRealm n) fun _ =>
    Plan.looks_bind (looks_getAllFrom Client n) fun _ =>
      Plan.looks_bind (looks_getAllFrom User n) fun _ => Plan.looks_pure _

/-! ### Changing -/

variable {α β : Type} {Q : α → MemoryStore → Prop}

/-- Wherever the plan is cut short, every listed member has a record, and what the plan ends
with has the property `Q`. -/
abbrev Safe (keys : KeySpace) (order : ScanOrder) (Q : α → MemoryStore → Prop) (p : Plan α)
    (s : MemoryStore) : Prop :=
  p.Safe (answerIn order) (Linked keys) Q s

/-- A look-up is safe, and what it ends with is known. -/
theorem safe_of_looks {p : Plan α} {x : Except StorageError α} (hs : Linked keys s)
    (hp : p.Looks) (hrun : p.run (answerIn order) s = (x, s)) :
    Safe keys order (fun a s' => s' = s ∧ x = .ok a) p s := by
  refine (hp.safe (fun _ => answerIn_of_isRead) hs).mono ?_
  rintro a s' - ⟨rfl, ha⟩
  rw [hrun] at ha
  cases ha
  exact ⟨rfl, rfl⟩

/-- A plan that goes on after a look-up. -/
theorem safe_look {R : β → MemoryStore → Prop} {p : Plan α} {f : α → Plan β}
    {x : Except StorageError α} (hs : Linked keys s) (hp : p.Looks)
    (hrun : p.run (answerIn order) s = (x, s)) (hf : ∀ a, x = .ok a → Safe keys order R (f a) s) :
    Safe keys order R (p >>= f) s := by
  refine Plan.safe_bind (safe_of_looks hs hp hrun) ?_
  rintro a s' - ⟨rfl, ha⟩
  exact hf a ha

theorem safe_set (hs : Linked keys s) {a : kind.Record} {text : String}
    (ha : Principal.ofPayload (Utf8.ofString text) = .ok a)
    (hid : ∀ b, recordAt keys s kind (Principal.name a) = some b →
      Principal.id b = Principal.id a) :
    Safe keys order (fun _ s' => s' = putRecord keys s kind (Principal.name a) text)
      (Plan.ask (.set (keys.record kind (Principal.name a)) text)) s := by
  refine Plan.safe_ask hs ?_ fun _ _ => ?_
  · rw [MemoryStore.answerIn_set hs.shaped.online]
    exact hs.putRecord ha hid
  · rw [MemoryStore.answerIn_set hs.shaped.online]
    rfl

/-- What a change makes of a list. -/
def Changed (keys : KeySpace) (s : MemoryStore) (kind : Kind) (r : String)
    (change : List Member → Except StorageError (Option (List Member))) (s' : MemoryStore) :
    Prop :=
  (change (membersAt keys s kind r) = .ok none ∧ s' = s) ∨
    ∃ ms, change (membersAt keys s kind r) = .ok (some ms) ∧ s' = putMembers keys s kind r ms

/-- A list is changed, or it is left as it is. -/
theorem safe_rewriteMembers (hs : Linked keys s) (kind : Kind) (r : String)
    {change : List Member → Except StorageError (Option (List Member))}
    (hchange : ∀ ms, change (membersAt keys s kind r) = .ok (some ms) →
      (names ms).Nodup ∧ ∀ m ∈ ms, HasRecord keys s kind m) :
    Safe keys order (fun _ => Changed keys s kind r change)
      (rewriteMembers (keys.members kind r) change) s := by
  refine safe_look hs (looks_loadMembers _) (run_loadMembers hs.shaped kind r) ?_
  intro ms hms
  cases hms
  refine safe_look hs (Plan.looks_ofExcept _) (Plan.run_ofExcept _) ?_
  intro ms hms
  cases ms with
  | none => exact Plan.safe_pure hs (.inl ⟨hms, rfl⟩)
  | some ms =>
      obtain ⟨hnodup, hlinks⟩ := hchange ms hms
      dsimp only
      refine Plan.safe_ask (r := .setList _ (Membership.toEntries ms)) hs ?_ ?_
      · rw [Membership.toEntries, MemoryStore.answerIn_setList hs.shaped.online]
        exact hs.putMembers hnodup hlinks
      · rw [Membership.toEntries, MemoryStore.answerIn_setList hs.shaped.online]
        exact fun _ _ => .inr ⟨ms, hms, rfl⟩

theorem safe_changeMembers (hs : Linked keys s) (kind : Kind) (r : String)
    (realm : Option String) {change : List Member → Except StorageError (Option (List Member))}
    (hchange : ∀ ms, change (membersAt keys s kind r) = .ok (some ms) →
      (names ms).Nodup ∧ ∀ m ∈ ms, HasRecord keys s kind m) :
    Safe keys order (fun _ => Changed keys s kind r change)
      (changeMembers keys (keys.members kind r) realm change) s := by
  cases realm with
  | none =>
      rw [changeMembers_none]
      exact Plan.safe_locked (safe_rewriteMembers hs kind r hchange)
  | some name =>
      rw [changeMembers_some]
      exact Plan.safe_locked
        (safe_look hs (looks_requireRealm name) (run_requireRealm order hs.shaped name)
          fun _ _ => safe_rewriteMembers hs kind r hchange)

theorem safe_resetMembers (hs : Linked keys s) (kind : Kind) (r : String) {ms : List Member}
    (hms : (names ms).Nodup) (hlinks : ∀ m ∈ ms, HasRecord keys s kind m) :
    Safe keys order (fun _ s' => ∀ kind' m, HasRecord keys s kind' m → HasRecord keys s' kind' m)
      (resetMembers keys (keys.members kind r) ms) s := by
  refine (safe_changeMembers hs kind r none fun ms' hchange => ?_).mono ?_
  · by_cases hsame : membersAt keys s kind r = ms
    · rw [if_pos hsame] at hchange
      cases hchange
    · rw [if_neg hsame] at hchange
      cases hchange
      exact ⟨hms, hlinks⟩
  · rintro _ s' - (⟨-, rfl⟩ | ⟨ms', -, rfl⟩) kind' m hm
    · exact hm
    · exact hm.congr (recordAt_putMembers kind' m.name)

/-- A name leaves a list, and comes into no other. -/
theorem safe_takeOut (hs : Linked keys s) (kind : Kind) (r₀ n : String) :
    Safe keys order (fun _ s' => ∀ r, r = r₀ ∨ n ∉ names (membersAt keys s kind r) →
        n ∉ names (membersAt keys s' kind r))
      (changeMembers keys (keys.members kind r₀) none fun ms =>
        let left := Membership.without n ms
        .ok (if left.length = ms.length then none else some left)) s := by
  refine (safe_changeMembers hs kind r₀ none fun ms hms => ?_).mono ?_
  · dsimp only at hms
    split_ifs at hms
    · cases hms
    · cases hms
      exact ⟨Membership.nodup_without (hs.shaped.nodup_membersAt kind r₀) n,
        fun m hm => hs.links kind r₀ m (Membership.mem_without.mp hm).1⟩
  · rintro _ s' - (⟨hsame, rfl⟩ | ⟨ms, hms, rfl⟩) r hr
    · dsimp only at hsame
      split_ifs at hsame with hlength
      · rcases hr with rfl | hr
        · exact Membership.length_without_eq_iff.mp hlength
        · exact hr
      · cases hsame
    · dsimp only at hms
      split_ifs at hms
      · cases hms
      · cases hms
        by_cases hsame : r = r₀
        · rw [hsame, membersAt_putMembers_self]
          intro hmem
          obtain ⟨m, hm, hname⟩ := List.mem_map.mp hmem
          exact (Membership.mem_without.mp hm).2 hname
        · rw [membersAt_putMembers_ne fun _ => hsame]
          exact hr.resolve_left hsame

/-- A name leaves the lists under some keys, and comes into no other. -/
theorem safe_removeEverywhere (hs : Linked keys s) (kind : Kind) (n : String)
    {lists : List String} (hlists : ∀ k ∈ lists, ∃ r, k = keys.members kind r) :
    Safe keys order (fun _ s' => ∀ r,
        keys.members kind r ∈ lists ∨ n ∉ names (membersAt keys s kind r) →
          n ∉ names (membersAt keys s' kind r))
      (removeEverywhere keys n lists) s := by
  induction lists generalizing s with
  | nil => exact Plan.safe_pure hs fun r hr => hr.resolve_left List.not_mem_nil
  | cons k rest ih =>
      obtain ⟨r₀, rfl⟩ := hlists k (by simp)
      refine Plan.safe_bind (safe_takeOut hs kind r₀ n) ?_
      intro _ s₁ hs₁ hfirst
      refine (ih hs₁ fun k hk => hlists k (by simp [hk])).mono ?_
      intro _ s₂ _ hrest r hr
      refine hrest r ?_
      rcases hr with hr | hr
      · rcases List.mem_cons.mp hr with hr | hr
        · exact .inr (hfirst r (.inl (keys.members_inj hr).2))
        · exact .inl hr
      · exact .inr (hfirst r (.inr hr))

/-- A record is stored where none is, or one of its identifier. -/
theorem safe_store (hs : Linked keys s) {a b : kind.Record} {text : String}
    (hb : Principal.ofPayload (Utf8.ofString text) = .ok b)
    (hmember : Principal.member b = Principal.member a) :
    Safe keys order (fun _ s' => HasRecord keys s' kind (Principal.member a) ∧
        ∀ kind' m, HasRecord keys s kind' m → HasRecord keys s' kind' m)
      (store keys a text) s := by
  obtain ⟨hid, hname⟩ := Member.mk.inj hmember
  refine Plan.safe_locked ?_
  rw [Kind.kind_record, ← hname]
  refine safe_look hs (looks_fetch kind.Record _) (run_fetch hs.shaped kind _)
    fun stored hstored => ?_
  cases hstored
  refine safe_look hs (Plan.looks_ofExcept _) (Plan.run_ofExcept _) ?_
  intro _ hcheck
  have hsame : ∀ c, recordAt keys s kind (Principal.name b) = some c →
      Principal.id c = Principal.id b := by
    intro c hc
    rw [hc, checkId] at hcheck
    split_ifs at hcheck with h
    rw [h, hid]
  refine (safe_set hs hb hsame).mono ?_
  rintro _ s' - rfl
  refine ⟨⟨b, ?_, hid⟩, fun kind' m hm => hm.putRecord hb hsame⟩
  rw [Principal.member, ← hname]
  exact recordAt_putRecord_self hb

theorem safe_create (hs : Linked keys s) (kind : Kind) (payload : List UInt8) :
    Safe keys order (fun _ _ => True) (create keys kind.Record payload) s := by
  refine safe_look hs (Plan.looks_ofExcept _) (Plan.run_ofExcept _) ?_
  intro a ha
  refine safe_look hs (Plan.looks_ofExcept _) (Plan.run_ofExcept _) ?_
  intro text htext
  refine Plan.safe_bind (safe_store hs (ofPayload_payloadText ha htext) rfl) ?_
  intro _ s' hs' _
  exact Plan.safe_pure hs' trivial

theorem safe_update (hs : Linked keys s) (kind : Kind) (n : String) (payload : List UInt8) :
    Safe keys order (fun _ _ => True) (update keys kind.Record n payload) s := by
  refine safe_look hs (Plan.looks_ofExcept _) (Plan.run_ofExcept _) ?_
  intro a ha
  refine safe_look hs (looks_get kind.Record n) (run_get order hs.shaped kind n) ?_
  intro stored hget
  have hstored := recordAt_of_recordOr hget
  split_ifs with hname
  · exact Plan.safe_fail hs _
  refine safe_look hs (Plan.looks_ofExcept _) (Plan.run_ofExcept _) ?_
  intro _ hcheck
  refine safe_look hs (Plan.looks_ofExcept _) (Plan.run_ofExcept _) ?_
  intro text htext
  have hn : Principal.name a = n := (not_not.mp hname).trans (hs.shaped.name_of_recordAt hstored)
  rw [Kind.kind_record, ← hn]
  refine Plan.safe_bind (safe_set hs (ofPayload_payloadText ha htext) fun b hb => ?_)
    fun _ s' hs' _ => Plan.safe_pure hs' trivial
  rw [hn, hstored] at hb
  cases hb
  rw [checkId] at hcheck
  split_ifs at hcheck with h
  exact h

/-- A record is removed when no list names it any more. -/
theorem safe_delete (hs : Linked keys s) (kind : Kind) (n : String) :
    Safe keys order (fun _ _ => True) (delete keys kind n) s := by
  have hhas : (Plan.ask (.has (keys.record kind n))).run (answerIn order) s
      = (.ok (s.entries.contains (keys.record kind n)), s) := by
    rw [Plan.run_ask, MemoryStore.answerIn_has hs.shaped.online]
    rfl
  have hscan : (Plan.ask (.scan (keys.membersPattern kind))).run (answerIn order) s
      = (.ok (order.arrange s.keys (keys.membersPattern kind)), s) := by
    rw [Plan.run_ask, MemoryStore.answerIn_scan hs.shaped.online]
    rfl
  refine safe_look hs (Plan.looks_ask rfl) hhas ?_
  intro found _
  split_ifs
  · refine safe_look hs (Plan.looks_ask rfl) hscan ?_
    intro lists hlists
    cases hlists
    refine Plan.safe_bind (safe_removeEverywhere hs kind n fun k hk => ?_) fun _ s' hs' hgone => ?_
    · exact keys.isMatch_membersPattern_iff.mp (order.mem_arrange.mp hk).2
    · have hnone : ∀ r, n ∉ names (membersAt keys s' kind r) := by
        intro r
        refine hgone r ?_
        rcases hs.shaped.members_cases kind r with ⟨-, hempty⟩ | ⟨entry, hsome, -, -⟩
        · rw [hempty]
          exact .inr List.not_mem_nil
        · refine .inl (order.mem_arrange.mpr ⟨s.mem_keys.mpr ⟨_, hsome⟩, ?_⟩)
          exact keys.isMatch_members kind r
      refine Plan.safe_bind (Q := fun _ _ => True) (Plan.safe_ask hs' ?_ fun _ _ => trivial)
        fun _ s' hs' _ => Plan.safe_pure hs' trivial
      rw [MemoryStore.answerIn_delete hs'.shaped.online]
      exact hs'.dropRecord hnone
  · exact Plan.safe_fail hs _

theorem safe_add (hs : Linked keys s) (kind : Kind) (r n : String) :
    Safe keys order (fun _ _ => True) (add keys kind.Record r n) s := by
  refine safe_look hs (looks_requireRealm r) (run_requireRealm order hs.shaped r) ?_
  intro _ _
  refine safe_look hs (looks_get kind.Record n) (run_get order hs.shaped kind n) ?_
  intro a hget
  have ha := recordAt_of_recordOr hget
  rw [Kind.kind_record]
  refine (safe_changeMembers hs kind r (some r) fun ms hms => ?_).mono fun _ _ _ _ => trivial
  cases hms
  refine ⟨Membership.nodup_upsert (hs.shaped.nodup_membersAt kind r) _, fun m hm => ?_⟩
  rcases Membership.mem_upsert hm with rfl | hm
  · refine ⟨a, ?_, rfl⟩
    rw [Principal.member, hs.shaped.name_of_recordAt ha, ha]
  · exact hs.links kind r m hm

theorem safe_remove (hs : Linked keys s) (kind : Kind) (r n : String) :
    Safe keys order (fun _ _ => True) (remove keys kind r n) s := by
  refine (safe_changeMembers hs kind r (some r) fun ms hms => ?_).mono fun _ _ _ _ => trivial
  dsimp only at hms
  split_ifs at hms
  cases hms
  exact ⟨Membership.nodup_without (hs.shaped.nodup_membersAt kind r) n,
    fun m hm => hs.links kind r m (Membership.mem_without.mp hm).1⟩

/-! ### Realms -/

/-- Records are stored one after the other, so that all of them are there in the end. -/
theorem safe_storeAll (hs : Linked keys s) (kind : Kind) {as : List kind.Record}
    (h : ∀ a ∈ as, kind.Sound a) :
    Safe keys order (fun _ s' => (∀ a ∈ as, HasRecord keys s' kind (Principal.member a)) ∧
        ∀ kind' m, HasRecord keys s kind' m → HasRecord keys s' kind' m)
      (storeAll keys as) s := by
  induction as generalizing s with
  | nil => exact Plan.safe_pure hs ⟨fun a ha => (nomatch ha), fun _ _ hm => hm⟩
  | cons a rest ih =>
      have hread := Kind.ofPayload_write (h a (by simp))
      refine Plan.safe_bind (safe_store hs hread (Kind.member_reread a)) ?_
      intro _ s₁ hs₁ hfirst
      refine (ih hs₁ fun a ha => h a (by simp [ha])).mono ?_
      intro _ s₂ _ hrest
      refine ⟨fun b hb => ?_, fun kind' m hm => hrest.2 kind' m (hfirst.2 kind' m hm)⟩
      rcases List.mem_cons.mp hb with rfl | hb
      · exact hrest.2 kind _ hfirst.1
      · exact hrest.1 b hb

theorem safe_putRealm (hs : Linked keys s) {realm : Realm}
    (hname : isRealmName realm.name = true) :
    Safe keys order (fun _ _ => True) (putRealm keys realm) s := by
  refine Plan.safe_ask (Q := fun _ _ => True) hs ?_ fun _ _ => trivial
  rw [MemoryStore.answerIn_set hs.shaped.online]
  exact hs.putDocument hname

/-- The members of a new realm have different names. -/
theorem nodup_of_checkNewMembers (hs : Linked keys s) (kind : Kind) {as : List kind.Record}
    (h : (checkNewMembers keys [] as).run (answerIn order) s = (.ok (), s)) :
    (names (as.map Principal.member)).Nodup := by
  rw [names, List.map_map]
  exact ((keeps_checkNewMembers kind [] as).run hs.shaped h).1

theorem safe_createRealm (hs : Linked keys s) (payload : List UInt8) :
    Safe keys order (fun _ _ => True) (createRealm keys payload) s := by
  refine safe_look hs (Plan.looks_ofExcept _) (Plan.run_ofExcept _) ?_
  intro realm hrealm
  have hsound := Realm.sound_of_ofPayload (Json.eq_ok_of_mapError hrealm)
  refine safe_look hs (Plan.looks_ofExcept _) (Plan.run_ofExcept _) ?_
  intro _ hcheck
  have hname := checkRealmName_eq_ok_iff.mp hcheck
  refine safe_look hs (looks_realmExists _) (run_realmExists hs.shaped _) ?_
  intro found _
  split_ifs
  · exact Plan.safe_fail hs _
  have hread : ∀ q : Request, q.isRead = true → (s.answerIn order q).2 = s :=
    fun _ => answerIn_of_isRead
  refine Plan.safe_bind ((looks_checkNewMembers Client [] _).safe hread hs) ?_
  rintro _ s' - ⟨rfl, hclients⟩
  refine Plan.safe_bind ((looks_checkNewMembers User [] _).safe hread hs) ?_
  rintro _ s' - ⟨rfl, husers⟩
  have hclients := nodup_of_checkNewMembers hs .client hclients
  have husers := nodup_of_checkNewMembers hs .user husers
  refine Plan.safe_bind (safe_storeAll hs .client hsound.clients) ?_
  intro _ s₁ hs₁ h₁
  refine Plan.safe_bind (safe_storeAll hs₁ .user hsound.users) ?_
  intro _ s₂ hs₂ h₂
  refine Plan.safe_bind (safe_resetMembers hs₂ .client realm.name hclients fun m hm => ?_)
    fun _ s₃ hs₃ h₃ => ?_
  · obtain ⟨a, ha, rfl⟩ := List.mem_map.mp hm
    exact h₂.2 .client _ (h₁.1 a ha)
  refine Plan.safe_bind (safe_resetMembers hs₃ .user realm.name husers fun m hm => ?_)
    fun _ s₄ hs₄ _ => ?_
  · obtain ⟨a, ha, rfl⟩ := List.mem_map.mp hm
    exact h₃ .user _ (h₂.1 a ha)
  exact Plan.safe_bind (safe_putRealm hs₄ hname) fun _ s₅ hs₅ _ => Plan.safe_pure hs₅ trivial

theorem safe_updateRealm (hs : Linked keys s) (n : String) (payload : List UInt8) :
    Safe keys order (fun _ _ => True) (updateRealm keys n payload) s := by
  refine safe_look hs (Plan.looks_ofExcept _) (Plan.run_ofExcept _) ?_
  intro realm _
  split_ifs with hname
  · exact Plan.safe_fail hs _
  refine safe_look hs (looks_requireRealm n) (run_requireRealm order hs.shaped n) ?_
  intro _ hrealm
  refine Plan.safe_bind (safe_putRealm hs ?_) fun _ s' hs' _ => Plan.safe_pure hs' trivial
  rw [not_not.mp hname]
  obtain ⟨found, hfound, -⟩ := Json.exists_of_map_eq_ok hrealm
  exact isRealmName_of_realmAt (realmAt_of_realmOr hfound)

theorem safe_deleteRealm (hs : Linked keys s) (n : String) :
    Safe keys order (fun _ _ => True) (deleteRealm keys n) s := by
  refine safe_look hs (looks_requireRealm n) (run_requireRealm order hs.shaped n) ?_
  intro _ _
  refine Plan.safe_locked (Plan.safe_locked ?_)
  refine Plan.safe_bind (Q := fun _ _ => True) (Plan.safe_ask hs ?_ fun _ _ => trivial)
    fun _ s' hs' _ => Plan.safe_pure hs' trivial
  rw [MemoryStore.answerIn_delete hs.shaped.online]
  exact hs.dropRealm n

/-! ### Operations -/

/-- A look-up answers an operation. -/
theorem safe_answer {p : Plan α} {f : α → Answer} (hs : Linked keys s) (hp : p.Looks) :
    Safe keys order (fun _ _ => True) (do return f (← p)) s :=
  Plan.safe_bind (hp.safe (fun _ => answerIn_of_isRead) hs)
    fun _ _ hs' _ => Plan.safe_pure hs' trivial

/-- Wherever an operation is cut short, every listed member has a record. -/
theorem safe_plan (hs : Linked keys s) (op : Operation) :
    Safe keys order (fun _ _ => True) (plan keys op) s := by
  cases op with
  | getRealm n => exact safe_answer hs (looks_getRealm n)
  | getRealmWithMembers n => exact safe_answer hs (looks_getRealmWithMembers n)
  | createRealm payload =>
      exact Plan.safe_bind (safe_createRealm hs payload) fun _ _ hs' _ => Plan.safe_pure hs' trivial
  | updateRealm n payload =>
      exact Plan.safe_bind (safe_updateRealm hs n payload) fun _ _ hs' _ =>
        Plan.safe_pure hs' trivial
  | deleteRealm n =>
      exact Plan.safe_bind (safe_deleteRealm hs n) fun _ _ hs' _ => Plan.safe_pure hs' trivial
  | get kind n => exact safe_answer hs (looks_get kind.Record n)
  | getFrom kind r n => exact safe_answer hs (looks_getFrom kind.Record r n)
  | getUserById r id => exact safe_answer hs (looks_getUserById r id)
  | getAllFrom kind r => exact safe_answer hs (looks_getAllFrom kind.Record r)
  | create kind payload =>
      exact Plan.safe_bind (safe_create hs kind payload) fun _ _ hs' _ => Plan.safe_pure hs' trivial
  | update kind n payload =>
      exact Plan.safe_bind (safe_update hs kind n payload) fun _ _ hs' _ =>
        Plan.safe_pure hs' trivial
  | delete kind n =>
      exact Plan.safe_bind (safe_delete hs kind n) fun _ _ hs' _ => Plan.safe_pure hs' trivial
  | add kind r n =>
      exact Plan.safe_bind (safe_add hs kind r n) fun _ _ hs' _ => Plan.safe_pure hs' trivial
  | remove kind r n =>
      exact Plan.safe_bind (safe_remove hs kind r n) fun _ _ hs' _ => Plan.safe_pure hs' trivial

/-! ### Histories -/

variable (keys) in
/-- The answer to an operation of which some calls fail, and the store after it. -/
def attempt (order : ScanOrder) (s : MemoryStore) (op : Operation)
    (script : List (Option StoreError)) : Except StorageError Answer × MemoryStore :=
  let (answer, s, _) := (plan keys op).run (Plan.flaky (answerIn order)) (s, script)
  (answer, s)

variable (keys) in
/-- The store after operations that came one after the other, each with the order in which the
store listed its keys meanwhile, and with the calls of it that failed. -/
def after (history : List (ScanOrder × Operation × List (Option StoreError))) : MemoryStore :=
  history.foldl (fun s (order, op, script) => (attempt keys order s op script).2) .empty

theorem Linked.attempt (hs : Linked keys s) (op : Operation)
    (script : List (Option StoreError)) : Linked keys (attempt keys order s op script).2 :=
  ((safe_plan hs op).run_flaky script).1

theorem linked_after (history : List (ScanOrder × Operation × List (Option StoreError))) :
    Linked keys (after keys history) := by
  have hfold : ∀ s, Linked keys s → Linked keys (history.foldl
      (fun s (order, op, script) => (Keyed.attempt keys order s op script).2) s) := by
    induction history with
    | nil => exact fun s hs => hs
    | cons step history ih => exact fun s hs => ih _ (hs.attempt step.2.1 step.2.2)
  exact hfold _ linked_empty

/-- Where every listed member has a record, the records of a realm are all found. -/
theorem recordsOr_eq (hs : Linked keys s) (kind : Kind) (r : String) :
    recordsOr keys s kind r = (realmOr keys s r).map fun _ =>
      (membersAt keys s kind r).filterMap fun m => recordAt keys s kind m.name := by
  have hmissing : names ((membersAt keys s kind r).filter fun m =>
      (recordAt keys s kind m.name).isNone) = [] := by
    refine List.map_eq_nil_iff.mpr (List.filter_eq_nil_iff.mpr fun m hm => ?_)
    obtain ⟨a, ha, -⟩ := hs.links kind r m hm
    simp [ha]
  unfold recordsOr
  dsimp only
  rw [if_pos hmissing]
  rcases realmOr keys s r with e | realm <;> rfl

/-- A look-up ends with an error of the store, or as it would if no call failed. -/
theorem attempt_of_looks (op : Operation) {p : Plan α} {f : α → Answer}
    (hop : plan keys op = p >>= fun a => pure (f a)) (hp : p.Looks)
    {x : Except StorageError α} (hrun : p.run (answerIn order) s = (x, s))
    (script : List (Option StoreError)) :
    (attempt keys order s op script).1 = x.map f ∨
      ∃ e, (attempt keys order s op script).1 = .error (.ofStore e) := by
  have hlooks : (plan keys op).Looks := by
    rw [hop]
    exact Plan.looks_bind hp fun _ => Plan.looks_pure _
  have hwhole : ((plan keys op).run (answerIn order) s).1 = x.map f := by
    rw [hop]
    rcases x with e | a
    · rw [Plan.run_bind_error hrun]
      rfl
    · rw [Plan.run_bind_ok hrun]
      rfl
  rw [← hwhole]
  exact hlooks.run_flaky (fun _ => answerIn_of_isRead) script

theorem ofStore_ne_inconsistent (e : StoreError) (realm entity : String) (missing : List String) :
    StorageError.ofStore e ≠ .inconsistent realm entity missing := by
  unfold StorageError.ofStore
  split_ifs <;> exact fun h => nomatch h

/-- A look-up that finds no list with missing records finds none where calls of it fail. -/
theorem attempt_ne_inconsistent {p : Plan α} {f : α → Answer} {op : Operation}
    (hop : plan keys op = p >>= fun a => pure (f a)) (hp : p.Looks)
    {x : Except StorageError α} (hrun : p.run (answerIn order) s = (x, s))
    {realm entity : String} {missing : List String}
    (hx : x ≠ .error (.inconsistent realm entity missing)) (script : List (Option StoreError)) :
    (attempt keys order s op script).1 ≠ .error (.inconsistent realm entity missing) := by
  intro h
  rcases attempt_of_looks op hop hp hrun script with hanswer | ⟨e, hanswer⟩
  · rw [hanswer] at h
    rcases x with e | a
    · cases h
      exact hx rfl
    · cases h
  · rw [hanswer] at h
    exact ofStore_ne_inconsistent _ _ _ _ (Except.error.inj h)

/-- A list is read, and every member that it names has a record of its identifier. -/
theorem Linked.records_of_list (hs : Linked keys s) {kind : Kind} {r : String} {e : Entry}
    (he : s.entries[keys.members kind r]? = some e) :
    ∃ entries ms, e = .list entries ∧ Membership.ofEntries entries = .ok ms ∧
      ∀ m ∈ ms, ∃ text, ∃ a : kind.Record,
        s.entries[keys.record kind m.name]? = some (.text text) ∧
        Principal.ofPayload (Utf8.ofString text) = .ok a ∧ Principal.id a = m.id := by
  obtain ⟨entry, ms, rfl, hread, hnodup⟩ := (hs.shaped.entries _ e he).of_members
  refine ⟨[entry], ms, rfl, Membership.ofEntries_singleton hread hnodup, ?_⟩
  intro m hm
  have hview : membersAt keys s kind r = ms := by
    rw [membersAt, he]
    simp [hread, Except.toOption]
  obtain ⟨a, ha, hid⟩ := hs.links kind r m (hview ▸ hm)
  rcases hs.shaped.record_cases kind m.name with ⟨-, hnone⟩ | ⟨text, b, htext, hb, -, hsome⟩
  · rw [hnone] at ha
    cases ha
  · rw [hsome] at ha
    cases ha
    exact ⟨text, a, htext, hb, hid⟩

/-- The record of the first member of an identifier has that identifier. -/
theorem Linked.id_of_recordOr (hs : Linked keys s) {r : String} {id : Uuid} {m : Member}
    (hm : (membersAt keys s .user r).find? (·.id = id) = some m) {u : User}
    (hu : recordOr keys s .user m.name = .ok u) : u.id = id := by
  obtain ⟨v, hv, hid⟩ := hs.links .user r m (List.mem_of_find?_eq_some hm)
  rw [recordOr, hv] at hu
  cases hu
  have hm : m.id = id := by simpa using List.find?_some hm
  exact hid.trans hm

/-- **Every listed member has a record of its name and identifier**, in whatever store
operations leave that come one after the other, in whatever order each finds the keys that it
looks for, wherever calls of them fail, and whether or not the realm of the list has a
document.  So no realm is ever found to list members without records, and a user that is found
by an identifier has it. -/
theorem members_have_records (keys : KeySpace)
    (history : List (ScanOrder × Operation × List (Option StoreError))) :
    let s := after keys history
    (∀ kind r e, s.entries[keys.members kind r]? = some e →
      ∃ entries ms, e = .list entries ∧ Membership.ofEntries entries = .ok ms ∧
        ∀ m ∈ ms, ∃ text, ∃ a : kind.Record,
          s.entries[keys.record kind m.name]? = some (.text text) ∧
          Principal.ofPayload (Utf8.ofString text) = .ok a ∧ Principal.id a = m.id) ∧
    (∀ order kind r script realm entity missing,
      (attempt keys order s (.getAllFrom kind r) script).1 ≠
        .error (.inconsistent realm entity missing)) ∧
    (∀ order n script realm entity missing,
      (attempt keys order s (.getRealmWithMembers n) script).1 ≠
        .error (.inconsistent realm entity missing)) ∧
    ∀ order r id script answer, (attempt keys order s (.getUserById r id) script).1 = .ok answer →
      ∃ u, answer = .one .user u ∧ u.id = id := by
  intro s
  have hs : Linked keys s := linked_after history
  refine ⟨fun kind r e => hs.records_of_list, ?_, ?_, ?_⟩
  · intro order kind r script realm entity missing
    refine attempt_ne_inconsistent (f := .many kind) rfl (looks_getAllFrom kind.Record r)
      (run_getAllFrom order hs.shaped kind r) ?_ script
    rw [recordsOr_eq hs, realmOr]
    cases realmAt keys s r <;> rintro ⟨⟩
  · intro order n script realm entity missing
    refine attempt_ne_inconsistent (f := .realm) rfl (looks_getRealmWithMembers n)
      (run_getRealmWithMembers hs.shaped n) ?_ script
    rw [recordsOr_eq hs, recordsOr_eq hs, realmOr]
    cases realmAt keys s n <;> rintro ⟨⟩
  · intro order r id script answer h
    rcases attempt_of_looks (.getUserById r id) (f := .one .user) rfl
      (looks_getUserById r id) (run_getUserById hs.shaped r id) script with hx | ⟨e, hx⟩
    · rw [hx] at h
      obtain ⟨u, hu, rfl⟩ := Json.exists_of_map_eq_ok h
      obtain ⟨realm, -, hu⟩ := Json.exists_of_bind_eq_ok hu
      refine ⟨u, rfl, ?_⟩
      cases hfind : (membersAt keys s .user r).find? fun m => decide (m.id = id) with
      | none =>
        rw [hfind] at hu
        cases hu
      | some m =>
        rw [hfind] at hu
        exact hs.id_of_recordOr hfind hu
    · rw [hx] at h
      cases h

end IdentityStore.Keyed
