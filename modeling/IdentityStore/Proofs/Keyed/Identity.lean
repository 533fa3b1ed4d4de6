/-
The identifier under a name stays.

Three kinds of write reach a record.  A creation, and a realm that is created with members,
look for the record and write it under the lock of its key; an update holds no lock, but it
has read the record before.  As long as nobody deletes the record, a read that has found an
identifier goes on being true, since everyone writes it again; and a look under the lock that
has found nothing goes on being true as well, since an update that has found nothing writes
nothing.  So no write ever changes the identifier: `Faithful` says so of one request, and
`Steady` what others can rely on in return.
-/
import IdentityStore.Proofs.Keyed.Ledger
import IdentityStore.Proofs.Keyed.Revival
import IdentityStore.Proofs.Plan.Trace

namespace IdentityStore.Keyed

variable (keys : KeySpace) (kind : Kind) (n : String)

/-- The store has a record of a name, and it has this identifier. -/
def Identified (s : MemoryStore) (id : Uuid) : Prop :=
  ∃ text a, s.entries[keys.record kind n]? = some (.text text) ∧
    decode kind.Record (keys.record kind n) text = .ok a ∧ Principal.id a = id

/-- A request that writes the record of a name writes it with the identifier that is stored, or
where nothing is stored, under the lock of the record. -/
def Faithful : Allowance MemoryStore := fun held _ s request =>
  request.writes (keys.record kind n) = true →
    ∃ text a, request = .set (keys.record kind n) text ∧
      decode kind.Record (keys.record kind n) text = .ok a ∧
      (Identified keys kind n s (Principal.id a) ∨
        (keys.record kind n ∈ held ∧ s.entries[keys.record kind n]? = none))

/-- What stays as it is where nobody deletes the record of a name. -/
structure Steady (held : List String) (s s' : MemoryStore) : Prop where
  kept : Kept keys held s s'
  id : ∀ id, Identified keys kind n s id → Identified keys kind n s' id
  absent : keys.record kind n ∈ held → s.entries[keys.record kind n]? = none →
    s'.entries[keys.record kind n]? = none

variable {keys kind n} {order : ScanOrder} {op : Operation} {held : List String}
  {past : List (Exchange MemoryStore)} {s s' s'' : MemoryStore} {id id' : Uuid}
  {ops : List Operation} {events : List Crew.Event}

/-- A name has one identifier. -/
theorem Identified.unique (h : Identified keys kind n s id) (h' : Identified keys kind n s id') :
    id = id' := by
  obtain ⟨text, a, htext, ha, rfl⟩ := h
  obtain ⟨text', a', htext', ha', rfl⟩ := h'
  cases htext.symm.trans htext'
  cases ha.symm.trans ha'
  rfl

theorem Identified.congr (h : Identified keys kind n s id)
    (hentry : s'.entries[keys.record kind n]? = s.entries[keys.record kind n]?) :
    Identified keys kind n s' id := by
  obtain ⟨text, a, htext, ha⟩ := h
  exact ⟨text, a, hentry.trans htext, ha⟩

theorem Identified.ne_none (h : Identified keys kind n s id) :
    s.entries[keys.record kind n]? ≠ none := by
  obtain ⟨text, a, htext, -⟩ := h
  simp [htext]

theorem Steady.refl (held : List String) (s : MemoryStore) : Steady keys kind n held s s :=
  ⟨kept_refl keys held s, fun _ h => h, fun _ h => h⟩

theorem Steady.trans (h : Steady keys kind n held s s') (h' : Steady keys kind n held s' s'') :
    Steady keys kind n held s s'' where
  kept := h.kept.trans h'.kept
  id id hid := h'.id id (h.id id hid)
  absent hheld hnone := h'.absent hheld (h.absent hheld hnone)

variable (keys order kind n) in
/-- The terms on which operations share a store where nobody deletes the record of a name. -/
def steadily : Accord MemoryStore where
  answer := MemoryStore.answerIn order
  keeps := Steady keys kind n
  refl := Steady.refl
  trans := Steady.trans

/-- A faithful request disturbs nobody who holds other locks. -/
theorem Faithful.steady {request : Request} (hconduct : Conduct keys op held past s request)
    (h : Faithful keys kind n held past s request) {others : List String}
    (hothers : ∀ key ∈ others, key ∉ held) :
    Steady keys kind n others s (s.answerIn order request).2 := by
  have hkept : Kept keys others s (s.answerIn order request).2 := hconduct.kept hothers
  by_cases hwrites : request.writes (keys.record kind n) = true
  swap
  · have hentry : (s.answerIn order request).2.entries[keys.record kind n]?
        = s.entries[keys.record kind n]? :=
      entry_of_not_writes hconduct (Bool.eq_false_iff.mpr hwrites)
    exact ⟨hkept, fun id hid => hid.congr hentry, fun _ hnone => hentry.trans hnone⟩
  obtain ⟨text, a, rfl, ha, hstored⟩ := h hwrites
  by_cases hon : s.online = true
  swap
  · rw [MemoryStore.answerIn_offline hon]
    exact Steady.refl others s
  refine ⟨hkept, fun id hid => ?_, fun hheld hnone => ?_⟩
  · have hsame : Principal.id a = id := by
      rcases hstored with hstored | ⟨-, hnone⟩
      · exact hstored.unique hid
      · exact absurd hnone hid.ne_none
    rw [MemoryStore.after_set, if_pos hon]
    exact ⟨text, a, by simp [MemoryStore.getElem?_put], ha, hsame⟩
  · rcases hstored with hstored | ⟨hkey, -⟩
    · exact absurd hnone hstored.ne_none
    · exact absurd hkey (hothers _ hheld)

/-! ### Plans -/

variable {α β : Type} {Q : α → List (Exchange MemoryStore) → MemoryStore → Prop}
  {R : β → List (Exchange MemoryStore) → MemoryStore → Prop}

variable (keys order kind n) in
/-- From some held locks, some exchanges and a store on, a plan requests only what is faithful. -/
abbrev Faithfully (Q : α → List (Exchange MemoryStore) → MemoryStore → Prop) (p : Plan α)
    (held : List String) (past : List (Exchange MemoryStore)) (s : MemoryStore) : Prop :=
  p.Abides (steadily keys kind n order) (Faithful keys kind n) Q held held past s

/-- Nothing is said of what a plan comes to. -/
def Anyhow (_ : α) (_ : List (Exchange MemoryStore)) (_ : MemoryStore) : Prop := True

theorem faithful_of_not_writes {request : Request}
    (h : request.writes (keys.record kind n) = false) :
    Faithful keys kind n held past s request := by
  intro hwrites
  rw [h] at hwrites
  cases hwrites

/-- A plan that goes on after a look-up. -/
theorem faithfully_look {p : Plan α} {f : α → Plan β} (hp : p.Looks)
    (hf : ∀ a past' s', Steady keys kind n held s s' →
      Faithfully keys kind n order R (f a) held past' s') :
    Faithfully keys kind n order R (p >>= f) held past s :=
  Plan.abides_bind
    (hp.abides (fun _ _ _ _ hr => faithful_of_not_writes (Request.writes_of_isRead hr))
      (fun _ _ hr => MemoryStore.answerIn_of_isRead hr) held past s)
    fun a _ _ ⟨_, hs'⟩ => hf a _ _ hs'

/-- A plan that goes on with what is known already. -/
theorem faithfully_known {x : Except StorageError α} {f : α → Plan β}
    (hf : ∀ a, x = .ok a → Faithfully keys kind n order R (f a) held past s) :
    Faithfully keys kind n order R (Plan.ofExcept x >>= f) held past s :=
  Plan.abides_bind (Q := fun a past' s' => x = .ok a ∧ past' = past ∧ Steady keys kind n held s s')
    (Plan.abides_ofExcept fun _ ha _ hs' => ⟨ha, rfl, hs'⟩)
    fun a _ _ ⟨ha, hpast, hs'⟩ => hpast ▸ (hf a ha).after hs'

/-- A request that leaves the record alone. -/
theorem faithfully_ask {request : Request} (h : request.writes (keys.record kind n) = false) :
    Faithfully keys kind n order Anyhow (Plan.ask request) held past s :=
  Plan.abides_ask (fun _ _ => faithful_of_not_writes h) fun _ _ _ _ _ _ => trivial

/-- What is found stays found, and what is not found under the lock stays away. -/
theorem faithfully_fetch (kind : Kind) (n : String) :
    Faithfully keys kind n order (fun found _ s' =>
        (∀ a, found = some a → Identified keys kind n s' (Principal.id a)) ∧
        (found = none → keys.record kind n ∈ held → s'.entries[keys.record kind n]? = none))
      (fetch keys kind.Record n) held past s := by
  unfold fetch
  rw [Kind.kind_record]
  refine Plan.abides_bind (Q := fun found _ s' =>
    (∀ text, found = some text → ∀ a, decode kind.Record (keys.record kind n) text = .ok a →
      Identified keys kind n s' (Principal.id a)) ∧
    (found = none → keys.record kind n ∈ held → s'.entries[keys.record kind n]? = none))
    (Plan.abides_ask (fun _ _ => faithful_of_not_writes rfl) ?_) ?_
  · intro s₁ _ found hfound s₂ hs₂
    have hget : (s₁.answerIn order (.get (keys.record kind n))).1 = .ok found := hfound
    have hsame : ((steadily keys kind n order).answer s₁ (.get (keys.record kind n))).2 = s₁ :=
      MemoryStore.answerIn_of_isRead rfl
    rw [hsame] at hs₂
    refine ⟨?_, ?_⟩
    · rintro text rfl a ha
      exact hs₂.id _ ⟨text, a, entries_of_get hget, ha, rfl⟩
    · rintro rfl hheld
      exact hs₂.absent hheld (entries_of_get_none hget)
  · rintro found past' s' ⟨hfound, hnone⟩
    cases found with
    | none =>
        exact Plan.abides_pure fun s'' hs'' =>
          ⟨fun a ha => (nomatch ha), fun _ hheld => hs''.absent hheld (hnone rfl hheld)⟩
    | some text =>
        refine Plan.abides_ofExcept fun found hdecoded s'' hs'' => ?_
        obtain ⟨a, ha, rfl⟩ := Json.exists_of_map_eq_ok hdecoded
        refine ⟨fun b hb => ?_, fun h => nomatch h⟩
        cases hb
        exact hs''.id _ (hfound text rfl a ha)

theorem faithfully_get (kind : Kind) (n : String) :
    Faithfully keys kind n order (fun a _ s' => Identified keys kind n s' (Principal.id a))
      (get keys kind.Record n) held past s := by
  refine Plan.abides_bind (faithfully_fetch kind n) ?_
  rintro found past' s' ⟨hfound, -⟩
  cases found with
  | none => exact Plan.abides_fail _
  | some a => exact Plan.abides_pure fun s'' hs'' => hs''.id _ (hfound a rfl)

/-! ### Writes -/

theorem decode_eq_ok {key text : String} {a : kind.Record}
    (h : Principal.ofPayload (Utf8.ofString text) = .ok a) : decode kind.Record key text = .ok a := by
  rw [decode, h]
  rfl

theorem id_of_checkId {stored : Option kind.Record} {a b : kind.Record} {u : Unit}
    (h : checkId stored a = .ok u) (hb : stored = some b) : Principal.id b = Principal.id a := by
  subst hb
  unfold checkId at h
  dsimp only at h
  split_ifs at h with hid
  exact hid

/-- A record is looked for and written under its lock. -/
theorem faithfully_store {kind' : Kind} {a b : kind'.Record} {text : String}
    (htext : Principal.ofPayload (Utf8.ofString text) = .ok b)
    (hid : Principal.id b = Principal.id a) (hheld : keys.record kind' (Principal.name a) ∉ held) :
    Faithfully keys kind n order Anyhow (store keys a text) held past s := by
  unfold store
  dsimp only
  rw [Kind.kind_record]
  refine Plan.abides_locked (P := Anyhow) hheld (fun s₁ _ => ?_) fun _ _ _ _ _ _ => trivial
  by_cases hkey : keys.record kind' (Principal.name a) = keys.record kind n
  swap
  -- another record leaves the one of the name alone
  · refine faithfully_look (looks_fetch kind'.Record _) fun stored past' s₂ _ => ?_
    refine faithfully_known fun _ _ => faithfully_ask ?_
    simpa [Request.writes] using hkey
  obtain ⟨rfl, rfl⟩ := keys.record_inj hkey
  refine Plan.abides_bind (faithfully_fetch kind' (Principal.name a)) ?_
  rintro stored past' s₂ ⟨hfound, hnone⟩
  refine faithfully_known fun _ hchecked => ?_
  refine Plan.abides_ask (fun s₃ hs₃ _ => ⟨text, b, rfl, decode_eq_ok htext, ?_⟩)
    fun _ _ _ _ _ _ => trivial
  cases stored with
  | none => exact .inr ⟨List.mem_cons_self, hs₃.absent List.mem_cons_self
      (hnone rfl List.mem_cons_self)⟩
  | some c =>
      have hsame : Principal.id c = Principal.id b := (id_of_checkId hchecked rfl).trans hid.symm
      exact .inl (hsame ▸ hs₃.id _ (hfound c rfl))

theorem faithfully_storeAll (kind' : Kind) {as : List kind'.Record}
    (hsound : ∀ a ∈ as, kind'.Sound a) (hheld : ∀ m, keys.record kind' m ∉ held) :
    Faithfully keys kind n order Anyhow (storeAll keys as) held past s := by
  induction as generalizing past s with
  | nil => exact Plan.abides_pure fun _ _ => trivial
  | cons a rest ih =>
      refine Plan.abides_bind (faithfully_store (Kind.ofPayload_write (hsound a (by simp)))
        (Kind.id_reread a) (hheld _)) fun _ _ _ _ => ?_
      exact ih fun b hb => hsound b (by simp [hb])

theorem faithfully_create {kind' : Kind} {payload : List UInt8}
    (hheld : ∀ m, keys.record kind' m ∉ held) :
    Faithfully keys kind n order Anyhow (create keys kind'.Record payload) held past s := by
  refine faithfully_known fun a ha => ?_
  refine faithfully_known fun text htext => ?_
  refine Plan.abides_bind (faithfully_store (ofPayload_payloadText ha htext) rfl (hheld _))
    fun _ _ _ _ => ?_
  exact Plan.abides_pure fun _ _ => trivial

/-- An update that has found an identifier writes it again. -/
theorem faithfully_update {kind' : Kind} {m : String} {payload : List UInt8} :
    Faithfully keys kind n order Anyhow (update keys kind'.Record m payload) held past s := by
  refine faithfully_known fun a ha => ?_
  by_cases hkey : keys.record kind' m = keys.record kind n
  swap
  · refine faithfully_look (looks_get kind'.Record m) fun stored past' s₁ _ => ?_
    split_ifs
    · exact Plan.abides_fail _
    refine faithfully_known fun _ _ => faithfully_known fun text _ => ?_
    rw [Kind.kind_record]
    refine Plan.abides_bind (faithfully_ask ?_) fun _ _ _ _ => Plan.abides_pure fun _ _ => trivial
    simpa [Request.writes] using hkey
  obtain ⟨rfl, rfl⟩ := keys.record_inj hkey
  refine Plan.abides_bind (faithfully_get kind' m) ?_
  intro stored past' s₁ hstored
  split_ifs
  · exact Plan.abides_fail _
  refine Plan.abides_bind (Q := fun _ _ s' => Identified keys kind' m s' (Principal.id a))
    (Plan.abides_ofExcept fun _ hchecked s₂ hs₂ => ?_) ?_
  · exact id_of_checkId hchecked rfl ▸ hs₂.id _ hstored
  intro _ past₂ s₂ hid
  refine faithfully_known fun text htext => ?_
  rw [Kind.kind_record]
  refine Plan.abides_bind (Q := Anyhow) (Plan.abides_ask (fun s₃ hs₃ => ?_) fun _ _ _ _ _ _ => ?_)
    fun _ _ _ _ => Plan.abides_pure fun _ _ => trivial
  · exact fun _ => ⟨text, a, rfl, decode_eq_ok (ofPayload_payloadText ha htext), .inl (hs₃.id _ hid)⟩
  · trivial

theorem faithfully_resetMembers {kind' : Kind} {r : String} (ms : List Member)
    (hheld : keys.members kind' r ∉ held) :
    Faithfully keys kind n order Anyhow (resetMembers keys (keys.members kind' r) ms) held past s := by
  unfold resetMembers
  rw [changeMembers_none]
  refine Plan.abides_locked (P := Anyhow) hheld (fun s₁ _ => ?_) fun _ _ _ _ _ _ => trivial
  refine faithfully_look (looks_loadMembers _) fun current past' s₂ _ => ?_
  refine faithfully_known fun changed _ => ?_
  cases changed with
  | none => exact Plan.abides_pure fun _ _ => trivial
  | some ms' => exact faithfully_ask (by simp [Request.writes, keys.record_ne_members.symm])

theorem faithfully_createRealm {payload : List UInt8} :
    Faithfully keys kind n order Anyhow (createRealm keys payload) [] past s := by
  refine faithfully_known fun realm hrealm => ?_
  have hsound := Realm.sound_of_ofPayload (Json.eq_ok_of_mapError hrealm)
  refine faithfully_known fun _ _ => ?_
  refine faithfully_look (looks_realmExists _) fun found past₁ s₁ _ => ?_
  split_ifs
  · exact Plan.abides_fail _
  refine faithfully_look (looks_checkNewMembers Client [] _) fun _ past₂ s₂ _ => ?_
  refine faithfully_look (looks_checkNewMembers User [] _) fun _ past₃ s₃ _ => ?_
  refine Plan.abides_bind (faithfully_storeAll .client hsound.clients fun _ => List.not_mem_nil)
    fun _ past₄ s₄ _ => ?_
  refine Plan.abides_bind (faithfully_storeAll .user hsound.users fun _ => List.not_mem_nil)
    fun _ past₅ s₅ _ => ?_
  refine Plan.abides_bind (faithfully_resetMembers _ List.not_mem_nil) fun _ past₆ s₆ _ => ?_
  refine Plan.abides_bind (faithfully_resetMembers _ List.not_mem_nil) fun _ past₇ s₇ _ => ?_
  refine Plan.abides_bind (faithfully_ask ?_) fun _ _ _ _ => Plan.abides_pure fun _ _ => trivial
  simp [Request.writes, keys.record_ne_realm.symm]

/-! ### Operations -/

/-- Whoever writes a record creates it, updates it or deletes it. -/
theorem Conduct.writes_record {request : Request} (h : Conduct keys op held past s request)
    (hwrites : request.writes (keys.record kind n) = true) :
    .record kind n ∈ op.creates ∨ .record kind n ∈ op.updates ∨ .record kind n ∈ op.deletes := by
  cases h with
  | look h =>
      rw [Request.writes_of_isRead h] at hwrites
      cases hwrites
  | @create _ _ _ x _ _ h =>
      obtain rfl : x = .record kind n := Subject.key_inj (of_decide_eq_true hwrites)
      exact .inl h
  | @update _ _ _ x _ h =>
      obtain rfl : x = .record kind n := Subject.key_inj (of_decide_eq_true hwrites)
      exact .inr (.inl h)
  | change => exact absurd (of_decide_eq_true hwrites).symm keys.record_ne_members
  | delete hop =>
      obtain ⟨rfl, rfl⟩ := keys.record_inj (List.mem_singleton.mp (of_decide_eq_true hwrites))
      exact .inr (.inr (by simp [hop, Operation.deletes]))
  | deleteRealm =>
      have hmem := of_decide_eq_true hwrites
      simp [keys.record_ne_realm, keys.record_ne_members] at hmem

/-- What operations may request they may request where identifiers stay. -/
theorem conduct_steadily (op : Operation) (s : MemoryStore) :
    (plan keys op).Abides (steadily keys kind n order) (Conduct keys op) (Ends keys op) [] [] [] s := by
  have hconduct : Abides keys order op (Ends keys op) (plan keys op) [] [] s := abides_plan op s
  exact hconduct.among rfl fun _ _ _ h => Steady.kept h

/-- **Every operation that does not delete the record is faithful**, whatever others do to the
store that they may do too. -/
theorem faithfully_plan (hop : .record kind n ∉ op.deletes) (s : MemoryStore) :
    Faithfully keys kind n order Anyhow (plan keys op) [] [] s := by
  have hanswer : ∀ {α : Type} {p : Plan α} {f : α → Answer},
      Faithfully keys kind n order Anyhow p [] [] s →
      Faithfully keys kind n order Anyhow (do return f (← p)) [] [] s := by
    intro α p f hp
    exact Plan.abides_bind hp fun _ _ _ _ => Plan.abides_pure fun _ _ => trivial
  -- who neither creates nor updates the record does not write it at all
  have hothers : .record kind n ∉ op.creates → .record kind n ∉ op.updates →
      Faithfully keys kind n order Anyhow (plan keys op) [] [] s := by
    intro hcreates hupdates
    refine (conduct_steadily op s).mono (fun held past s request h hwrites => ?_) fun _ _ _ _ => trivial
    rcases h.writes_record hwrites with h | h | h
    · exact absurd h hcreates
    · exact absurd h hupdates
    · exact absurd h hop
  cases op with
  | createRealm payload => exact hanswer faithfully_createRealm
  | create kind' payload => exact hanswer (faithfully_create fun _ => List.not_mem_nil)
  | update kind' m payload => exact hanswer faithfully_update
  | _ => exact hothers (by simp [Operation.creates]) (by simp [Operation.updates])

/-! ### Runs -/

variable (keys kind n) in
/-- What the operation at a place may request where nobody deletes the record of a name. -/
def faithfulConducts (ops : List Operation) (i : Nat) : Allowance MemoryStore :=
  fun held past s request =>
    conducts keys ops i held past s request ∧ Faithful keys kind n held past s request

theorem faithfully_after (s : MemoryStore) (events : List Crew.Event)
    (hops : ∀ op ∈ ops, .record kind n ∉ op.deletes) :
    Crew.Abiding (steadily keys kind n order) (faithfulConducts keys kind n ops)
      (fun _ _ _ _ => True) s (crewAfter keys order s ops events)
      (logAfter keys order s ops events) := by
  have hconsiderate : Crew.Considerate (steadily keys kind n order)
      (faithfulConducts keys kind n ops) :=
    fun _ _ _ _ _ ⟨⟨_, _, hconduct⟩, h⟩ _ hothers => h.steady hconduct hothers
  refine (Crew.abiding_start s fun i p hp => ?_).events hconsiderate events
  rw [List.getElem?_map, Option.map_eq_some_iff] at hp
  obtain ⟨op, hop, rfl⟩ := hp
  have hfaithful : Faithfully keys kind n order Anyhow (plan keys op) [] [] s :=
    faithfully_plan (hops op (List.mem_of_getElem? hop)) s
  exact ((conduct_steadily op s).and hfaithful).mono (fun _ _ _ _ h => ⟨⟨op, hop, h.1⟩, h.2⟩)
    fun _ _ _ _ => trivial

/-- No exchange changes an identifier. -/
theorem identified_after (hops : ∀ op ∈ ops, .record kind n ∉ op.deletes)
    {entry : Nat × Exchange MemoryStore} (hentry : entry ∈ logAfter keys order s ops events)
    (hid : Identified keys kind n entry.2.before id) :
    Identified keys kind n entry.2.after id := by
  obtain ⟨l₁, l₂, hlog⟩ := List.append_of_mem hentry
  obtain ⟨held, ⟨op, -, hconduct⟩, hfaithful⟩ :=
    (faithfully_after s events hops).allowed l₁ entry.1 entry.2 l₂ hlog
  rcases answered_cases (answered_of_log hentry) with ⟨-, hsame⟩ | ⟨-, -, hrun⟩
  · exact hsame ▸ hid
  · rw [hrun]
    have hsteady : Steady keys kind n [] entry.2.before
        (entry.2.before.answerIn order entry.2.request).2 :=
      hfaithful.steady hconduct (List.forall_mem_nil _)
    exact hsteady.id id hid

/-! ### Who is refused -/

variable (keys order kind n) in
/-- All exchanges were answered by a store with this identifier under the name. -/
def Witnessed (id : Uuid) (past : List (Exchange MemoryStore)) : Prop :=
  ∀ y ∈ past, y.Answered (MemoryStore.answerIn order) ∧ Identified keys kind n y.before id

/-- A call has failed, and the plan has ended with the error of the store. -/
def Failed (past : List (Exchange MemoryStore)) (x : Except StorageError α) : Prop :=
  ∃ y ∈ past, ∃ e, y.reply = .error e ∧ x = .error (.ofStore e)

theorem Witnessed.of_prefix (h : Witnessed keys kind n order id past)
    {first : List (Exchange MemoryStore)} (hfirst : first <+: past) :
    Witnessed keys kind n order id first :=
  fun y hy => h y (hfirst.subset hy)

/-- Whatever goes on with a plan that is refused is refused. -/
theorem refused_of_bind {p : Plan α} {f : α → Plan β} {e : StorageError}
    {x : Except StorageError β}
    (hp : ∀ first y, first <+: past → p.Concludes first y → y = .error e ∨ Failed first y)
    (h : (p >>= f).Concludes past x) : x = .error e ∨ Failed past x := by
  rcases h.bind with ⟨e', hfirst, rfl⟩ | ⟨a, first, rest, rfl, hfirst, -⟩
  · rcases hp past _ (List.prefix_refl _) hfirst with heq | ⟨y, hy, cause, hreply, heq⟩
    · cases heq
      exact .inl rfl
    · cases heq
      exact .inr ⟨y, hy, cause, hreply, rfl⟩
  · rcases hp first _ (List.prefix_append ..) hfirst with heq | ⟨y, hy, cause, -, heq⟩
    · cases heq
    · cases heq

/-- Whoever looks for a record that is there finds it, unless the call fails. -/
theorem found_of_concludes {x : Except StorageError (Option kind.Record)}
    (h : (fetch keys kind.Record n).Concludes past x)
    (hpast : Witnessed keys kind n order id past) :
    (∃ a, x = .ok (some a) ∧ Principal.id a = id) ∨ Failed past x := by
  unfold fetch at h
  rw [Kind.kind_record] at h
  rcases h.bind with ⟨e, hask, rfl⟩ | ⟨found, first, rest, rfl, hask, hrest⟩
  · obtain ⟨reply, before, after, rfl, hreply⟩ := hask.ask
    cases reply with
    | error cause =>
        cases hreply
        exact .inr ⟨_, List.mem_singleton_self _, cause, rfl, rfl⟩
    | ok found => cases hreply
  obtain ⟨reply, before, after, rfl, hreply⟩ := hask.ask
  have hok : reply = .ok found := Json.eq_ok_of_mapError hreply.symm
  subst hok
  obtain ⟨hanswered, text, a, htext, ha, hid⟩ :=
    hpast _ (List.mem_append_left _ (List.mem_singleton_self _))
  have hget : (before.answerIn order (.get (keys.record kind n))).1 = .ok found := by
    rcases hanswered with hreal | ⟨hfailed, -⟩
    · exact (congrArg Prod.fst hreal).symm
    · cases hfailed
  have hfound : found = some text := by
    cases found with
    | none => exact absurd (entries_of_get_none hget) (by simp [htext])
    | some text' =>
        have hentry := (entries_of_get hget).symm.trans htext
        simpa using hentry
  subst hfound
  obtain ⟨-, hx⟩ := hrest.ofExcept
  rw [ha] at hx
  exact .inl ⟨a, hx, hid⟩

/-- Whoever stores a record where there is one with another identifier is refused, unless a
call fails. -/
theorem refused_of_store {a : kind.Record} {text : String} {x : Except StorageError Unit}
    (hid : Principal.id a ≠ id) (h : (store keys a text).Concludes past x)
    (hpast : Witnessed keys kind (Principal.name a) order id past) :
    x = .error (.otherId kind.entity id (Principal.id a)) ∨ Failed past x := by
  unfold store at h
  dsimp only at h
  rw [Kind.kind_record] at h
  rcases h.locked.bind with ⟨e, hfetch, rfl⟩ | ⟨stored, first, rest, rfl, hfetch, hrest⟩
  · rcases found_of_concludes hfetch hpast with ⟨b, hb, -⟩ | ⟨y, hy, cause, hreply, heq⟩
    · cases hb
    · cases heq
      exact .inr ⟨y, hy, cause, hreply, rfl⟩
  rcases found_of_concludes hfetch (hpast.of_prefix (List.prefix_append ..)) with
    ⟨b, hb, hsame⟩ | ⟨y, hy, cause, -, heq⟩
  swap
  · cases heq
  cases hb
  have hchecked : checkId (some b) a = .error (.otherId kind.entity id (Principal.id a)) := by
    rw [checkId.eq_def]
    dsimp only
    rw [hsame, if_neg (Ne.symm hid), Kind.entity_record]
  rw [hchecked] at hrest
  rcases hrest.bind with ⟨e, hknown, rfl⟩ | ⟨_, _, _, -, hknown, -⟩
  · cases hknown.ofExcept.2
    exact .inl rfl
  · cases hknown.ofExcept.2

/-- The payload describes the record, and it is text. -/
def Describes (payload : List UInt8) (a : kind.Record) : Prop :=
  ofRequest kind.Record payload = .ok a ∧
    ∃ text, payloadText (Principal.entity kind.Record) payload = .ok text

/-- A creation that finds another identifier is refused, unless a call fails. -/
theorem refused_of_create {payload : List UInt8} {a : kind.Record} {x : Except StorageError Answer}
    (hpayload : Describes payload a) (hid : Principal.id a ≠ id)
    (h : (plan keys (.create kind payload)).Concludes past x)
    (hpast : Witnessed keys kind (Principal.name a) order id past) :
    x = .error (.otherId kind.entity id (Principal.id a)) ∨ Failed past x := by
  obtain ⟨ha, text, htext⟩ := hpayload
  refine refused_of_bind (fun first y hfirst hcreate => ?_) h
  unfold create at hcreate
  rw [ha] at hcreate
  change (Plan.ofExcept (payloadText _ payload) >>= fun text => do
    store keys a text
    return a).Concludes first y at hcreate
  rw [htext] at hcreate
  refine refused_of_bind (p := store keys a text) (fun first' z hfirst' hstore => ?_) hcreate
  exact refused_of_store hid hstore (hpast.of_prefix (hfirst'.trans hfirst))

/-- **The identifier under a name stays**, if nobody deletes the record.  Once a record is
stored under the name, all that is stored there later has its identifier, in whatever order
calls come, and wherever calls fail or operations are given up; and whoever begins later to
create a record of the name with another identifier is refused, unless a call fails. -/
theorem identifier_stays (keys : KeySpace) (order : ScanOrder) (s : MemoryStore)
    (ops : List Operation) (events later : List Crew.Event) (kind : Kind) (n : String) (id : Uuid)
    (hops : ∀ op ∈ ops, .record kind n ∉ op.deletes)
    (hid : Identified keys kind n (crewAfter keys order s ops events).store id) :
    Identified keys kind n (crewAfter keys order s ops (events ++ later)).store id ∧
      ∀ (i : Nat) (payload : List UInt8) (a : kind.Record) (w : Worker Answer)
        (x : Except StorageError Answer), ops[i]? = some (.create kind payload) →
        Describes payload a → Principal.name a = n → Principal.id a ≠ id →
        Log.own i (logAfter keys order s ops events) = [] →
        (crewAfter keys order s ops (events ++ later)).workers[i]? = some w →
        w.result? = some x →
        x = .error (.otherId kind.entity id (Principal.id a)) ∨
          Failed (Log.own i (logAfter keys order s ops (events ++ later))) x := by
  have hlater : ∀ {entry}, entry ∈ (crewAfter keys order s ops events).log
      (MemoryStore.answerIn order) later → entry ∈ logAfter keys order s ops (events ++ later) := by
    intro entry hentry
    rw [logAfter_append]
    exact List.mem_append_right _ hentry
  obtain ⟨hafter, hbefore⟩ := (passes_later keys order s ops events later).forall
    (P := fun s => Identified keys kind n s id)
    (fun entry hentry => identified_after hops (hlater hentry)) hid
  refine ⟨hafter, fun i payload a w x hop hpayload hname hne hbegun hw hx => ?_⟩
  subst hname
  have hplan : (ops.map (plan keys))[i]? = some (plan keys (.create kind payload)) := by
    rw [List.getElem?_map, hop]
    rfl
  have hconcludes := Crew.concludes_of_result hplan hw hx
  have hpast : Witnessed keys kind (Principal.name a) order id
      (Log.own i (logAfter keys order s ops (events ++ later))) := by
    intro y hy
    rw [logAfter_append, Log.own_append, hbegun, List.nil_append] at hy
    -- all that the creation has exchanged was exchanged later
    have hmem := Log.mem_own.mp hy
    exact ⟨answered_of_log (hlater hmem), hbefore _ hmem⟩
  exact refused_of_create hpayload hne hconcludes hpast

/-- An identifier that ends in a digit, after nothing but zeros. -/
def numbered (digit : Fin 16) : Uuid := ⟨Uuid.nil.digits.dropLast ++ [digit], rfl⟩

/-- A client of the same name as `web`, with another identifier, in words. -/
def otherWeb : String :=
  "\x7b\"name\":\"web\",\"id\":\"00000000-0000-0000-0000-000000000002\"\x7d"

/-- A client is created, another of its name is created, and the client is updated. -/
def createBoth : List Operation :=
  [.create .client (Utf8.ofString web), .create .client (Utf8.ofString otherWeb),
    .update .client "web" (Utf8.ofString web)]

/-- The first client is created. -/
def firstCreated : List Crew.Event := List.replicate 4 (.step 0)

/-- The second creation and the update go on side by side. -/
def othersFollow : List Crew.Event := [1, 2, 1, 2, 1].map .step

/-- A text under the key of a record that is read with an identifier. -/
theorem identified_of_text {text : String}
    (htext : s.entries[keys.record kind n]? = some (.text text))
    (hid : (decode kind.Record (keys.record kind n) text).map Principal.id = .ok id) :
    Identified keys kind n s id := by
  obtain ⟨a, ha, rfl⟩ := Json.exists_of_map_eq_ok hid
  exact ⟨text, a, htext, ha, rfl⟩

theorem identifier_stays_web :
    (∀ op ∈ createBoth, .record .client "web" ∉ op.deletes) ∧
      Identified .default .client "web"
        (crewAfter .default .rising .empty createBoth firstCreated).store (numbered 1) ∧
      Identified .default .client "web"
        (crewAfter .default .rising .empty createBoth (firstCreated ++ othersFollow)).store
        (numbered 1) ∧
      ∃ w ∈ (crewAfter .default .rising .empty createBoth (firstCreated ++ othersFollow)).workers[1]?,
        ∃ x ∈ w.result?, x = .error (.otherId "Client" (numbered 1) (numbered 2)) ∨
          Failed (Log.own 1
            (logAfter .default .rising .empty createBoth (firstCreated ++ othersFollow))) x := by
  have hops : ∀ op ∈ createBoth, .record .client "web" ∉ op.deletes := by decide
  have hid : Identified .default .client "web"
      (crewAfter .default .rising .empty createBoth firstCreated).store (numbered 1) :=
    @identified_of_text _ _ _ _ _ web (by decide +kernel) (by decide +kernel)
  have hdone : ∃ w ∈ (crewAfter .default .rising .empty createBoth
      (firstCreated ++ othersFollow)).workers[1]?, ∃ x ∈ w.result?, x.isOk = false := by
    decide +kernel
  obtain ⟨w, hw, x, hx, -⟩ := hdone
  have hother : ((ofRequest Client (Utf8.ofString otherWeb)).map fun a => (a.name, a.id))
      = .ok ("web", numbered 2) := by decide +kernel
  obtain ⟨a, ha, hsame⟩ := Json.exists_of_map_eq_ok hother
  obtain ⟨hname, hnumber⟩ := Prod.mk.inj hsame
  have htext : payloadText (Principal.entity Client) (Utf8.ofString otherWeb) = .ok otherWeb := by
    decide +kernel
  obtain ⟨hafter, hrefused⟩ := identifier_stays .default .rising .empty createBoth firstCreated
    othersFollow .client "web" (numbered 1) hops hid
  have hresult := hrefused 1 _ a w x rfl ⟨ha, otherWeb, htext⟩ hname
    (show a.id ≠ numbered 1 by rw [hnumber]; decide) (by decide +kernel) hw hx
  rw [show Principal.id a = numbered 2 from hnumber] at hresult
  exact ⟨hops, hid, hafter, w, hw, x, hx, hresult⟩

end IdentityStore.Keyed
