/-
What operations may do to a store that they share.

An operation writes a list only under the lock of its key, and what it writes is its own
change made to what the list holds at that moment.  A document is written by whoever creates
it, or by whoever found it before; a record is removed after its name was seen to leave every
list that a scan has found, and a realm only under the locks of both its lists.  `Conduct`
says so of one request, and `abides_plan` of every operation.

In return, whoever holds the lock of a list can rely on the list, and on the document of its
realm if there is one: `Kept`.
-/
import IdentityStore.Proofs.Keyed.Contents
import IdentityStore.Proofs.Keyed.Integrity
import IdentityStore.Proofs.Plan.Conduct

namespace IdentityStore

/-! ### Subjects -/

/-- What has a document of its own. -/
inductive Subject where
  | realm (name : String)
  | record (kind : Kind) (name : String)
  deriving DecidableEq

namespace Subject

/-- The key of the document. -/
def key (keys : KeySpace) : Subject → String
  | realm name => keys.realm name
  | record kind name => keys.record kind name

/-- Holds unless the subject is a realm with a name that no realm may have. -/
def isNamed : Subject → Bool
  | realm name => isRealmName name
  | record _ _ => true

/-- The store has a document of the subject. -/
def Stored (keys : KeySpace) (s : MemoryStore) (x : Subject) : Prop :=
  x.isNamed = true ∧ (s.entries[x.key keys]?).isSome = true

variable {keys : KeySpace} {x y : Subject}

theorem key_ne_members (h : x.isNamed = true) (kind : Kind) (r : String) :
    x.key keys ≠ keys.members kind r := by
  cases x with
  | realm name => exact keys.realm_ne_members h
  | record kind' name => exact keys.record_ne_members

theorem key_inj (h : x.key keys = y.key keys) : x = y := by
  cases x <;> cases y
  · exact congrArg realm (keys.realm_inj h)
  · exact absurd h.symm keys.record_ne_realm
  · exact absurd h keys.record_ne_realm
  · obtain ⟨rfl, rfl⟩ := keys.record_inj h
    rfl

end Subject

namespace Operation

/-- What an operation creates, if it succeeds. -/
def creates : Operation → List Subject
  | .createRealm payload =>
    match Keyed.realmOfRequest payload with
    | .ok realm =>
      .realm realm.name :: (realm.clients.map fun c => .record .client (Principal.name c)) ++
        realm.users.map fun u => .record .user (Principal.name u)
    | .error _ => []
  | .create kind payload =>
    match Keyed.ofRequest kind.Record payload with
    | .ok a => [.record kind (Principal.name a)]
    | .error _ => []
  | _ => []

/-- What an operation writes a new version of. -/
def updates : Operation → List Subject
  | .updateRealm name _ => [.realm name]
  | .update kind name _ => [.record kind name]
  | _ => []

end Operation

namespace Keyed

open IdentityStore.Membership (Edit names)

/-! ### What is allowed -/

variable (keys : KeySpace)

/-- The record of a name was read, and it was this one. -/
def Read (past : List (Exchange MemoryStore)) (kind : Kind) (n : String) (a : kind.Record) : Prop :=
  ∃ x ∈ past, ∃ text, x.Succeeds (.get (keys.record kind n)) (some text) ∧
    x.before.entries[keys.record kind n]? = some (.text text) ∧
    decode kind.Record (keys.record kind n) text = .ok a

/-- A document of the subject was looked for and found. -/
def Found (past : List (Exchange MemoryStore)) (x : Subject) : Prop :=
  ∃ y ∈ past, (y.request = .get (x.key keys) ∨ y.request = .has (x.key keys)) ∧
    x.Stored keys y.before

/-- All lists of a kind were looked for, and each one that was found was seen later without
the name. -/
def Cleaned (past : List (Exchange MemoryStore)) (kind : Kind) (n : String) : Prop :=
  ∃ earlier scan later lists, past = earlier ++ scan :: later ∧
    scan.Succeeds (.scan (keys.membersPattern kind)) lists ∧
    ∀ r, (scan.before.entries[keys.members kind r]?).isSome = true →
      ∃ y ∈ later, n ∉ listed y.after (keys.members kind r)

/-- The members of a kind that a realm is created with. -/
def newMembers (kind : Kind) (realm : Realm) : List Member :=
  (Principal.ofRealm realm : List kind.Record).map Principal.member

/-- The change that an operation makes to the list of a kind and a realm. -/
inductive Edits (past : List (Exchange MemoryStore)) : Operation → Kind → String → Edit → Prop
  | add {kind : Kind} {r n : String} {a : kind.Record} (h : Read keys past kind n a) :
    Edits past (.add kind r n) kind r (.upsert (Principal.member a))
  | remove {kind : Kind} {r n : String} : Edits past (.remove kind r n) kind r (.without n)
  | delete {kind : Kind} {r n : String} : Edits past (.delete kind n) kind r (.without n)
  | create {kind : Kind} {payload : List UInt8} {realm : Realm}
    (h : realmOfRequest payload = .ok realm) (hnames : (names (newMembers kind realm)).Nodup) :
    Edits past (.createRealm payload) kind realm.name (.reset (newMembers kind realm))

/-- A list is written where it was or where its realm is, except when a realm is created. -/
def Grounded (op : Operation) (s : MemoryStore) (kind : Kind) (r : String) : Prop :=
  (s.entries[keys.members kind r]?).isSome = true ∨ Subject.Stored keys s (.realm r) ∨
    .realm r ∈ op.creates

/-- What an operation may request. -/
inductive Conduct (op : Operation) : Allowance MemoryStore
  | look {held past s r} (h : r.isRead = true) : Conduct op held past s r
  | create {held past s} {x : Subject} {text : String} (hnamed : x.isNamed = true)
    (h : x ∈ op.creates) : Conduct op held past s (.set (x.key keys) text)
  | update {held past s} {x : Subject} {text : String} (h : x ∈ op.updates)
    (hfound : Found keys past x) : Conduct op held past s (.set (x.key keys) text)
  | change {held past s} {kind : Kind} {r : String} {edit : Edit} {ms : List Member}
    (hheld : keys.members kind r ∈ held) (hms : contents s (keys.members kind r) = some ms)
    (hedit : Edits keys past op kind r edit) (hground : Grounded keys op s kind r) :
    Conduct op held past s
      (.setList (keys.members kind r) (Membership.toEntries (edit.apply ms)))
  | delete {held past s} {kind : Kind} {n : String} (h : op = .delete kind n)
    (hclean : Cleaned keys past kind n) : Conduct op held past s (.delete [keys.record kind n])
  | deleteRealm {held past s} {n : String} (h : op = .deleteRealm n)
    (hname : isRealmName n = true) (hheld : ∀ kind, keys.members kind n ∈ held) :
    Conduct op held past s
      (.delete [keys.realm n, keys.members .client n, keys.members .user n])

/-- What stays as it is for whoever holds the locks of lists. -/
structure Kept (held : List String) (s s' : MemoryStore) : Prop where
  members : ∀ kind r, keys.members kind r ∈ held →
    s'.entries[keys.members kind r]? = s.entries[keys.members kind r]?
  realm : ∀ kind r, keys.members kind r ∈ held → Subject.Stored keys s (.realm r) →
    Subject.Stored keys s' (.realm r)

theorem kept_refl (held : List String) (s : MemoryStore) : Kept keys held s s :=
  ⟨fun _ _ _ => rfl, fun _ _ _ h => h⟩

variable {keys} {held : List String} {past past' : List (Exchange MemoryStore)}
  {s s' s'' : MemoryStore} {order : ScanOrder} {op : Operation} {kind : Kind} {n r : String}

theorem Kept.trans (h : Kept keys held s s') (h' : Kept keys held s' s'') :
    Kept keys held s s'' where
  members kind r hkey := (h'.members kind r hkey).trans (h.members kind r hkey)
  realm kind r hkey hr := h'.realm kind r hkey (h.realm kind r hkey hr)

variable (keys) in
/-- The terms on which operations share a store. -/
def accord (order : ScanOrder) : Accord MemoryStore where
  answer := MemoryStore.answerIn order
  keeps := Kept keys
  refl := kept_refl keys
  trans := Kept.trans

theorem Read.mono {a : kind.Record} (h : Read keys past kind n a) (hpast : past <+: past') :
    Read keys past' kind n a :=
  let ⟨x, hx, hread⟩ := h
  ⟨x, hpast.subset hx, hread⟩

theorem Found.mono {x : Subject} (h : Found keys past x) (hpast : past <+: past') :
    Found keys past' x :=
  let ⟨y, hy, hfound⟩ := h
  ⟨y, hpast.subset hy, hfound⟩

theorem Edits.mono {edit : Edit} (h : Edits keys past op kind r edit) (hpast : past <+: past') :
    Edits keys past' op kind r edit := by
  cases h with
  | add h => exact .add (h.mono hpast)
  | remove => exact .remove
  | delete => exact .delete
  | create h hnames => exact .create h hnames

/-- Every change keeps names apart. -/
theorem Edits.nodup {edit : Edit} {ms : List Member} (h : Edits keys past op kind r edit)
    (hms : (names ms).Nodup) : (names (edit.apply ms)).Nodup := by
  cases h with
  | add => exact Membership.nodup_upsert hms _
  | remove => exact Membership.nodup_without hms _
  | delete => exact Membership.nodup_without hms _
  | create _ hnames => exact hnames

/-! ### What requests leave alone -/

theorem Kept.put {key : String} {entry : Entry}
    (h : ∀ kind r, keys.members kind r ∈ held → key ≠ keys.members kind r) :
    Kept keys held s (s.put key entry) where
  members kind r hkey := by rw [MemoryStore.getElem?_put, if_neg (h kind r hkey)]
  realm kind r hkey hr := by
    refine ⟨hr.1, ?_⟩
    rw [MemoryStore.getElem?_put]
    split_ifs
    · rfl
    · exact hr.2

theorem Kept.drop {ks : List String}
    (h : ∀ kind r, keys.members kind r ∈ held → keys.members kind r ∉ ks)
    (hrealm : ∀ kind r, keys.members kind r ∈ held → isRealmName r = true → keys.realm r ∉ ks) :
    Kept keys held s (s.drop ks) where
  members kind r hkey := by rw [MemoryStore.getElem?_drop, if_neg (h kind r hkey)]
  realm kind r hkey hr := by
    refine ⟨hr.1, ?_⟩
    have hkeep : (Subject.realm r).key keys ∉ ks := hrealm kind r hkey hr.1
    rw [MemoryStore.getElem?_drop, if_neg hkeep]
    exact hr.2

/-- What an operation may request disturbs nobody who holds other locks. -/
theorem Conduct.kept {request : Request} (h : Conduct keys op held past s request)
    {others : List String} (hothers : ∀ key ∈ others, key ∉ held) :
    Kept keys others s (s.answerIn order request).2 := by
  have hif : ∀ {s' : MemoryStore}, Kept keys others s s' →
      Kept keys others s (if s.online = true then s' else s) := by
    intro s' hs'
    split_ifs
    · exact hs'
    · exact kept_refl keys others s
  cases h with
  | look h =>
      rw [MemoryStore.answerIn_of_isRead h]
      exact kept_refl keys others s
  | create hnamed h =>
      rw [MemoryStore.after_set]
      exact hif (.put fun kind r _ => Subject.key_ne_members hnamed kind r)
  | update h hfound =>
      obtain ⟨y, -, -, hnamed, -⟩ := hfound
      rw [MemoryStore.after_set]
      exact hif (.put fun kind r _ => Subject.key_ne_members hnamed kind r)
  | change hheld =>
      rw [Membership.toEntries, MemoryStore.after_setList]
      exact hif (.put fun kind r hkey heq => hothers _ hkey (heq ▸ hheld))
  | delete =>
      rw [MemoryStore.after_delete]
      refine hif (.drop (fun kind r _ hmem => ?_) fun kind r _ _ hmem => ?_)
      · exact keys.record_ne_members (List.mem_singleton.mp hmem).symm
      · exact keys.record_ne_realm (List.mem_singleton.mp hmem).symm
  | @deleteRealm _ _ _ n _ hname hheld =>
      rw [MemoryStore.after_delete]
      refine hif (.drop (fun kind r hkey hmem => ?_) fun kind r hkey hr hmem => ?_)
      · simp only [List.mem_cons, List.not_mem_nil, or_false] at hmem
        rcases hmem with heq | heq | heq
        · exact keys.realm_ne_members hname heq.symm
        · exact hothers _ hkey (heq ▸ hheld .client)
        · exact hothers _ hkey (heq ▸ hheld .user)
      · simp only [List.mem_cons, List.not_mem_nil, or_false] at hmem
        rcases hmem with heq | heq | heq
        · exact hothers _ hkey (keys.realm_inj heq ▸ hheld kind)
        · exact keys.realm_ne_members hr heq
        · exact keys.realm_ne_members hr heq

/-! ### Look-ups -/

variable {α β : Type} {Q : α → List (Exchange MemoryStore) → MemoryStore → Prop}
  {R : β → List (Exchange MemoryStore) → MemoryStore → Prop}

variable (keys order op) in
/-- From some held locks, some exchanges and a store on, a plan requests only what the
operation may request. -/
abbrev Abides (Q : α → List (Exchange MemoryStore) → MemoryStore → Prop) (p : Plan α)
    (held : List String) (past : List (Exchange MemoryStore)) (s : MemoryStore) : Prop :=
  p.Abides (accord keys order) (Conduct keys op) Q held held past s

variable (past) in
/-- More was exchanged, and nothing else is known. -/
def Later (_ : α) (past' : List (Exchange MemoryStore)) (_ : MemoryStore) : Prop := past <+: past'

theorem abides_looks {p : Plan α} (h : p.Looks) :
    Abides keys order op (fun _ past' s' => past <+: past' ∧ Kept keys held s s') p held past s :=
  h.abides (fun _ _ _ _ => .look) (fun _ _ => MemoryStore.answerIn_of_isRead) held past s

/-- A plan that goes on after a look-up. -/
theorem abides_look {p : Plan α} {f : α → Plan β} (hp : p.Looks)
    (hf : ∀ a past' s', past <+: past' → Kept keys held s s' →
      Abides keys order op R (f a) held past' s') :
    Abides keys order op R (p >>= f) held past s :=
  Plan.abides_bind (abides_looks hp) fun a _ _ ⟨hpast, hs'⟩ => hf a _ _ hpast hs'

/-- A plan that goes on with what is known already. -/
theorem abides_known {x : Except StorageError α} {f : α → Plan β}
    (hf : ∀ a, x = .ok a → Abides keys order op R (f a) held past s) :
    Abides keys order op R (Plan.ofExcept x >>= f) held past s :=
  Plan.abides_bind
    (Q := fun a past' s' => x = .ok a ∧ past' = past ∧ Kept keys held s s')
    (Plan.abides_ofExcept fun _ ha _ hs' => ⟨ha, rfl, hs'⟩)
    fun a _ _ ⟨ha, hpast, hs'⟩ => hpast ▸ (hf a ha).after hs'

/-- A request that reads finds the store as it is, and what was kept so far is kept. -/
theorem abides_read {q : Request} (hq : q.isRead = true) :
    Abides keys order op (fun a past' s' => ∃ s₁, Kept keys held s s₁ ∧ Kept keys held s₁ s' ∧
      (s₁.answerIn order q).1 = .ok a ∧ past' = past ++ [.of (MemoryStore.answerIn order) s₁ q])
      (Plan.ask q) held past s := by
  refine Plan.abides_ask (fun _ _ => .look hq) fun s₁ hs₁ a ha s' hs' => ⟨s₁, hs₁, ?_, ha, rfl⟩
  rw [show ((accord keys order).answer s₁ q).2 = s₁ from MemoryStore.answerIn_of_isRead hq] at hs'
  exact hs'

theorem text?_of_get {key : String} {found : Option String}
    (h : (s.answerIn order (.get key)).1 = .ok found) : s.text? key = .ok found := by
  have hon := MemoryStore.online_of_answerIn h
  exact (congrArg Prod.fst (MemoryStore.answerIn_get hon key)).symm.trans h

theorem entries_of_get {key text : String} (h : (s.answerIn order (.get key)).1 = .ok (some text)) :
    s.entries[key]? = some (.text text) := by
  have htext := text?_of_get h
  unfold MemoryStore.text? at htext
  split at htext
  · cases htext
  · cases htext
    assumption
  · cases htext

theorem entries_of_get_none {key : String} (h : (s.answerIn order (.get key)).1 = .ok none) :
    s.entries[key]? = none := by
  have htext := text?_of_get h
  unfold MemoryStore.text? at htext
  split at htext
  · assumption
  · cases htext
  · cases htext

theorem isSome_of_has {key : String} {found : Bool}
    (h : (s.answerIn order (.has key)).1 = .ok found) : (s.entries[key]?).isSome = found := by
  have hon := MemoryStore.online_of_answerIn h
  have hhas : (Except.ok (s.entries.contains key) : Except StoreError Bool) = .ok found := by
    rw [← h]
    exact (congrArg Prod.fst (MemoryStore.answerIn_has hon key)).symm
  rw [← Std.ExtTreeMap.contains_eq_isSome_getElem?]
  exact Except.ok.inj hhas

theorem list_of_list {key : String} {entries : List String}
    (h : (s.answerIn order (.list key)).1 = .ok entries) : s.list? key = .ok entries := by
  have hon := MemoryStore.online_of_answerIn h
  rw [← h]
  exact (congrArg Prod.fst (MemoryStore.answerIn_list hon key)).symm

/-- A list is read as what it holds. -/
theorem contents_of_run_loadMembers {key : String} {ms : List Member}
    (h : (loadMembers key).run (MemoryStore.answerIn order) s = (.ok ms, s')) :
    contents s key = some ms := by
  rcases Plan.run_bind_cases h with ⟨e, -, hx⟩ | ⟨entries, s₁, hentries, hms⟩
  · cases hx
  · rw [Plan.run_ofExcept] at hms
    exact contents_of_list (list_of_list (Plan.run_ask_ok hentries))
      (Json.eq_ok_of_mapError (congrArg Prod.fst hms))

theorem mem_of_scan {pattern : String} {lists : List String}
    (h : (s.answerIn order (.scan pattern)).1 = .ok lists) (key : String) :
    key ∈ lists ↔ (s.entries[key]?).isSome = true ∧ Glob.isMatch pattern key = true := by
  have hon := MemoryStore.online_of_answerIn h
  simp only [MemoryStore.answerIn, if_pos hon] at h
  cases h
  rw [order.mem_arrange, MemoryStore.mem_keys, Option.isSome_iff_exists]

/-- A realm that is required is found, and whoever holds the lock of a list of it finds it
there for as long. -/
theorem abides_requireRealm (n : String) :
    Abides keys order op (fun _ past' s' => past <+: past' ∧ Found keys past' (.realm n) ∧
        ∀ kind, keys.members kind n ∈ held → Subject.Stored keys s' (.realm n))
      (requireRealm keys n) held past s := by
  unfold requireRealm realmExists
  by_cases hn : isRealmName n = true
  · rw [if_pos hn]
    refine Plan.abides_bind (abides_read rfl) ?_
    rintro found past' s' ⟨s₁, hs₁, hs', hfound, rfl⟩
    cases found with
    | false => exact Plan.abides_fail _
    | true =>
      have hstored : Subject.Stored keys s₁ (.realm n) := ⟨hn, isSome_of_has hfound⟩
      refine Plan.abides_pure fun s'' hs'' => ⟨List.prefix_append .., ?_, fun kind hkey => ?_⟩
      · exact ⟨_, List.mem_append_right _ (List.mem_singleton_self _), .inr rfl, hstored⟩
      · exact (hs'.trans hs'').realm kind n hkey hstored
  · rw [if_neg hn]
    exact Plan.abides_fail _

theorem abides_fetch (kind : Kind) (n : String) :
    Abides keys order op (fun found past' _ => past <+: past' ∧
        ∀ a, found = some a → Read keys past' kind n a)
      (fetch keys kind.Record n) held past s := by
  unfold fetch
  rw [Kind.kind_record]
  refine Plan.abides_bind (abides_read rfl) ?_
  rintro found past' s' ⟨s₁, -, -, hfound, rfl⟩
  cases found with
  | none =>
      exact Plan.abides_pure fun _ _ => ⟨List.prefix_append .., fun a ha => nomatch ha⟩
  | some text =>
      refine Plan.abides_ofExcept fun found hfound' _ _ => ⟨List.prefix_append .., fun a ha => ?_⟩
      obtain ⟨b, hb, rfl⟩ := Json.exists_of_map_eq_ok hfound'
      cases ha
      exact ⟨_, List.mem_append_right _ (List.mem_singleton_self _), text,
        Exchange.succeeds_of hfound, entries_of_get hfound, hb⟩

theorem abides_get (kind : Kind) (n : String) :
    Abides keys order op (fun a past' _ => past <+: past' ∧ Read keys past' kind n a)
      (get keys kind.Record n) held past s := by
  refine Plan.abides_bind (abides_fetch kind n) ?_
  rintro found past' s' ⟨hpast, hread⟩
  cases found with
  | none => exact Plan.abides_fail _
  | some a => exact Plan.abides_pure fun _ _ => ⟨hpast, hread a rfl⟩

theorem Read.found {a : kind.Record} (h : Read keys past kind n a) :
    Found keys past (.record kind n) :=
  let ⟨x, hx, _, hread, htext, _⟩ := h
  ⟨x, hx, .inl hread.request, rfl, Option.isSome_iff_exists.mpr ⟨_, htext⟩⟩

/-- Whoever holds the lock of a list reads what the list goes on holding. -/
theorem abides_loadMembers (hkey : keys.members kind r ∈ held) :
    Abides keys order op (fun ms past' s' => ∃ y : Exchange MemoryStore, past' = past ++ [y] ∧
        contents y.after (keys.members kind r) = some ms ∧
        contents s' (keys.members kind r) = some ms ∧ Kept keys held s s')
      (loadMembers (keys.members kind r)) held past s := by
  refine Plan.abides_bind (abides_read rfl) ?_
  rintro entries past' s' ⟨s₁, hs₁, hs', hentries, rfl⟩
  refine Plan.abides_ofExcept fun ms hms s'' hs'' => ⟨_, rfl, ?_, ?_, ?_⟩
  · show contents (s₁.answerIn order _).2 _ = _
    rw [MemoryStore.answerIn_of_isRead rfl]
    exact contents_of_list (list_of_list hentries) (Json.eq_ok_of_mapError hms)
  · rw [contents_congr ((hs'.trans hs'').members kind r hkey)]
    exact contents_of_list (list_of_list hentries) (Json.eq_ok_of_mapError hms)
  · exact hs₁.trans (hs'.trans hs'')

/-! ### Lists -/

variable (keys) in
/-- What became of a list that was to be rewritten: it was left, or it was written. -/
def Settled (kind : Kind) (r : String)
    (change : List Member → Except StorageError (Option (List Member)))
    (later : List (Exchange MemoryStore)) : Prop :=
  ∃ ms, ∃ y ∈ later,
    (change ms = .ok none ∧ contents y.after (keys.members kind r) = some ms) ∨
    ∃ ms', change ms = .ok (some ms') ∧ contents y.after (keys.members kind r) = some ms' ∧
      y.request = .setList (keys.members kind r) (Membership.toEntries ms') ∧ y.reply.isOk = true

variable {change : List Member → Except StorageError (Option (List Member))}

theorem abides_rewriteMembers (hkey : keys.members kind r ∈ held)
    (hchange : ∀ ms ms', change ms = .ok (some ms') →
      ∃ edit, Edits keys past op kind r edit ∧ ms' = edit.apply ms)
    (hground : ∀ s' ms ms', Kept keys held s s' → contents s' (keys.members kind r) = some ms →
      change ms = .ok (some ms') → Grounded keys op s' kind r) :
    Abides keys order op
      (fun _ past' _ => ∃ later, past' = past ++ later ∧ Settled keys kind r change later)
      (rewriteMembers (keys.members kind r) change) held past s := by
  refine Plan.abides_bind (abides_loadMembers hkey) ?_
  rintro ms _ s₁ ⟨y, rfl, hy, hms, hs₁⟩
  refine abides_known fun changed hchanged => ?_
  cases changed with
  | none => exact Plan.abides_pure fun _ _ => ⟨[y], rfl, ms, y, by simp, .inl ⟨hchanged, hy⟩⟩
  | some ms' =>
      obtain ⟨edit, hedit, rfl⟩ := hchange ms ms' hchanged
      have hbefore : ∀ s₂, Kept keys held s₁ s₂ →
          contents s₂ (keys.members kind r) = some ms := by
        intro s₂ hs₂
        rw [contents_congr (hs₂.members kind r hkey), hms]
      refine Plan.abides_ask (fun s₂ hs₂ => ?_) fun s₂ hs₂ a ha s₃ hs₃ => ?_
      · exact .change hkey (hbefore s₂ hs₂) (hedit.mono (List.prefix_append ..))
          (hground s₂ ms _ (hs₁.trans hs₂) (hbefore s₂ hs₂) hchanged)
      · have hon := MemoryStore.online_of_answerIn ha
        have hafter : (s₂.answerIn order (.setList (keys.members kind r)
              (Membership.toEntries (edit.apply ms)))).2.entries[keys.members kind r]?
            = some (.list (Membership.toEntries (edit.apply ms))) := by
          rw [Membership.toEntries, MemoryStore.after_setList, if_pos hon,
            MemoryStore.getElem?_put, if_pos rfl]
        refine ⟨[y, _], List.append_assoc .., ms, _,
          List.mem_cons_of_mem _ (List.mem_singleton_self _), .inr ?_⟩
        refine ⟨_, hchanged, ?_, rfl, ?_⟩
        · exact contents_of_entry hafter (hedit.nodup (nodup_contents hms))
        · show (s₂.answerIn order _).1.isOk = true
          rw [show (s₂.answerIn order _).1 = _ from ha]
          rfl

/-- A list is rewritten under its lock, and where a realm is named, only if it is there. -/
theorem abides_changeMembers (hkey : keys.members kind r ∉ held) {realm : Option String}
    (hrealm : ∀ name, realm = some name → name = r)
    (hchange : ∀ past' ms ms', past <+: past' → change ms = .ok (some ms') →
      ∃ edit, Edits keys past' op kind r edit ∧ ms' = edit.apply ms)
    (hground : realm = none → ∀ s' ms ms', contents s' (keys.members kind r) = some ms →
      change ms = .ok (some ms') → Grounded keys op s' kind r) :
    Abides keys order op
      (fun _ past' _ => ∃ later, past' = past ++ later ∧ Settled keys kind r change later)
      (changeMembers keys (keys.members kind r) realm change) held past s := by
  have hheld : keys.members kind r ∈ keys.members kind r :: held := List.mem_cons_self
  cases realm with
  | none =>
      rw [changeMembers_none]
      refine Plan.abides_locked hkey (fun s₁ _ => ?_) fun _ _ _ _ h _ => h
      exact abides_rewriteMembers hheld (fun ms ms' => hchange past ms ms' (List.prefix_refl _))
        fun s' ms ms' _ => hground rfl s' ms ms'
  | some name =>
      obtain rfl := hrealm name rfl
      rw [changeMembers_some]
      refine Plan.abides_locked hkey (fun s₁ _ => ?_) fun _ _ _ _ h _ => h
      refine Plan.abides_bind (abides_requireRealm name) ?_
      rintro _ _ s₂ ⟨⟨looked, rfl⟩, -, hstored⟩
      refine (abides_rewriteMembers hheld (fun ms ms' => hchange _ ms ms' (List.prefix_append ..))
        fun s' ms ms' hs' _ _ => ?_).mono (fun _ _ _ _ h => h) ?_
      · exact .inr (.inl (hs'.realm kind name hheld (hstored kind hheld)))
      · rintro _ _ _ ⟨later, rfl, ms, y, hy, hsettled⟩
        exact ⟨looked ++ later, List.append_assoc .., ms, y, List.mem_append_right _ hy, hsettled⟩

/-- The change that takes a name out of a list, if it is there. -/
def takeOut (name : String) (ms : List Member) : Except StorageError (Option (List Member)) :=
  let left := Membership.without name ms
  .ok (if left.length = ms.length then none else some left)

theorem takeOut_eq_none {ms : List Member} (h : takeOut n ms = .ok none) : n ∉ names ms := by
  unfold takeOut at h
  by_cases hlength : (Membership.without n ms).length = ms.length
  · exact Membership.length_without_eq_iff.mp hlength
  · dsimp only at h
    rw [if_neg hlength] at h
    cases h

theorem takeOut_eq_some {ms ms' : List Member} (h : takeOut n ms = .ok (some ms')) :
    ms' = Membership.without n ms ∧ n ∈ names ms := by
  unfold takeOut at h
  by_cases hlength : (Membership.without n ms).length = ms.length
  · dsimp only at h
    rw [if_pos hlength] at h
    cases h
  · dsimp only at h
    rw [if_neg hlength] at h
    cases h
    exact ⟨rfl, not_not.mp fun hn => hlength (Membership.length_without_eq_iff.mpr hn)⟩

theorem abides_takeOut (hop : op = .delete kind n) (r : String) (hkey : keys.members kind r ∉ held) :
    Abides keys order op (fun _ past' _ => ∃ later, past' = past ++ later ∧
        ∃ y ∈ later, n ∉ listed y.after (keys.members kind r))
      (changeMembers keys (keys.members kind r) none (takeOut n)) held past s := by
  refine (abides_changeMembers hkey ?_ ?_ ?_).mono (fun _ _ _ _ h => h) ?_
  · exact fun _ h => nomatch h
  · intro past' ms ms' _ hchange
    obtain ⟨rfl, -⟩ := takeOut_eq_some hchange
    subst hop
    exact ⟨.without n, .delete, rfl⟩
  · intro _ s' ms ms' hms hchange
    refine .inl (isSome_of_listed (n := n) ?_)
    rw [listed_of_contents hms]
    exact (takeOut_eq_some hchange).2
  · rintro _ _ _ ⟨later, rfl, ms, y, hy, hsettled⟩
    refine ⟨later, rfl, y, hy, ?_⟩
    rcases hsettled with ⟨hsame, hms⟩ | ⟨ms', hwrote, hms, -, -⟩
    · rw [listed_of_contents hms]
      exact takeOut_eq_none hsame
    · rw [listed_of_contents hms, (takeOut_eq_some hwrote).1, Membership.names_without]
      simp

/-- A name is taken out of one list after the other. -/
theorem abides_removeEverywhere (hop : op = .delete kind n) {lists : List String}
    (hlists : ∀ key ∈ lists, ∃ r, key = keys.members kind r)
    (hheld : ∀ r, keys.members kind r ∉ held) :
    Abides keys order op (fun _ past' _ => ∃ later, past' = past ++ later ∧
        ∀ key ∈ lists, ∃ y ∈ later, n ∉ listed y.after key)
      (removeEverywhere keys n lists) held past s := by
  induction lists generalizing past s with
  | nil => exact Plan.abides_pure fun _ _ => ⟨[], (List.append_nil _).symm, fun _ h => nomatch h⟩
  | cons key rest ih =>
      obtain ⟨r, rfl⟩ := hlists key (by simp)
      refine Plan.abides_bind (abides_takeOut hop r (hheld r)) ?_
      rintro _ _ s₁ ⟨first, rfl, y, hy, hclean⟩
      refine (ih fun key hkey => hlists key (by simp [hkey])).mono (fun _ _ _ _ h => h) ?_
      rintro _ _ _ ⟨later, rfl, hlater⟩
      refine ⟨first ++ later, List.append_assoc .., fun key hkey => ?_⟩
      rcases List.mem_cons.mp hkey with rfl | hkey
      · exact ⟨y, List.mem_append_left _ hy, hclean⟩
      · obtain ⟨z, hz, hclean⟩ := hlater key hkey
        exact ⟨z, List.mem_append_right _ hz, hclean⟩

/-! ### Records -/

theorem abides_store {a : kind.Record} (h : .record kind (Principal.name a) ∈ op.creates)
    (hheld : keys.record kind (Principal.name a) ∉ held) (text : String) :
    Abides keys order op (Later past) (store keys a text) held past s := by
  unfold store
  dsimp only
  rw [Kind.kind_record]
  refine Plan.abides_locked hheld (fun s₁ _ => ?_) fun _ _ _ _ h _ => h
  refine abides_look (looks_fetch kind.Record _) fun stored past' s₂ hpast _ => ?_
  refine abides_known fun _ _ => ?_
  refine Plan.abides_ask (fun _ _ => .create rfl h) fun _ _ _ _ _ _ => ?_
  exact hpast.trans (List.prefix_append ..)

theorem abides_create {payload : List UInt8} (hop : op = .create kind payload)
    (hheld : ∀ n, keys.record kind n ∉ held) :
    Abides keys order op (Later past) (create keys kind.Record payload) held past s := by
  refine abides_known fun a ha => ?_
  refine abides_known fun text _ => ?_
  have hcreates : Subject.record kind (Principal.name a) ∈ op.creates := by
    rw [hop, Operation.creates, ha]
    exact List.mem_singleton_self _
  refine Plan.abides_bind (abides_store hcreates (hheld _) text) fun _ past' _ hpast => ?_
  exact Plan.abides_pure fun _ _ => hpast

theorem abides_update {payload : List UInt8} (hop : op = .update kind n payload) :
    Abides keys order op (Later past) (update keys kind.Record n payload) held past s := by
  refine abides_known fun a _ => ?_
  refine Plan.abides_bind (abides_get kind n) ?_
  rintro stored past' s' ⟨hpast, hread⟩
  split_ifs
  · exact Plan.abides_fail _
  refine abides_known fun _ _ => ?_
  refine abides_known fun text _ => ?_
  rw [Kind.kind_record]
  have hupdates : Subject.record kind n ∈ op.updates := by
    rw [hop]
    exact List.mem_singleton_self _
  refine Plan.abides_bind (Q := Later past)
    (Plan.abides_ask (fun _ _ => .update hupdates hread.found) fun _ _ _ _ _ _ => ?_)
    fun _ _ _ hlater => Plan.abides_pure fun _ _ => hlater
  exact hpast.trans (List.prefix_append ..)

theorem abides_delete (hop : op = .delete kind n) (hheld : ∀ r, keys.members kind r ∉ held) :
    Abides keys order op (Later past) (delete keys kind n) held past s := by
  refine abides_look (Plan.looks_ask rfl) fun found past₁ s₁ hpast₁ _ => ?_
  split_ifs
  · refine Plan.abides_bind (abides_read rfl) ?_
    rintro lists _ s₂ ⟨s₃, -, -, hlists, rfl⟩
    have hmem := mem_of_scan hlists
    refine Plan.abides_bind (abides_removeEverywhere hop (fun key hkey => ?_) hheld) ?_
    · exact keys.isMatch_membersPattern_iff.mp ((hmem key).mp hkey).2
    rintro _ _ s₄ ⟨later, rfl, hclean⟩
    have hcleaned : Cleaned keys
        (past₁ ++ [.of (MemoryStore.answerIn order) s₃ (.scan (keys.membersPattern kind))] ++ later)
        kind n := by
      refine ⟨past₁, _, later, lists, List.append_assoc .., Exchange.succeeds_of hlists,
        fun r hr => ?_⟩
      exact hclean _ ((hmem _).mpr ⟨hr, keys.isMatch_members kind r⟩)
    refine Plan.abides_bind (Q := Later past)
      (Plan.abides_ask (fun _ _ => .delete hop hcleaned) fun _ _ _ _ _ _ => ?_)
      fun _ _ _ hlater => Plan.abides_pure fun _ _ => hlater
    rw [List.append_assoc, List.append_assoc]
    exact hpast₁.trans (List.prefix_append ..)
  · exact Plan.abides_fail _

/-- A record that was read is put into the list, unless an error comes first. -/
theorem abides_add (hop : op = .add kind r n) (hheld : keys.members kind r ∉ held) :
    Abides keys order op (fun _ past' _ => ∃ y ∈ past', ∃ entries,
        y.request = .setList (keys.members kind r) entries ∧ y.reply.isOk = true)
      (add keys kind.Record r n) held past s := by
  refine abides_look (looks_requireRealm r) fun _ past₁ s₁ _ _ => ?_
  refine Plan.abides_bind (abides_get kind n) ?_
  rintro a past₂ s₂ ⟨-, hread⟩
  rw [Kind.kind_record]
  refine (abides_changeMembers hheld (fun _ h => (Option.some.inj h).symm) ?_
    fun h => nomatch h).mono (fun _ _ _ _ h => h) ?_
  · intro past' ms ms' hpast hchange
    cases hchange
    subst hop
    exact ⟨_, .add (hread.mono hpast), rfl⟩
  · rintro _ _ _ ⟨later, rfl, ms, y, hy, ⟨hsame, -⟩ | ⟨ms', -, -, hrequest, hok⟩⟩
    · cases hsame
    · exact ⟨y, List.mem_append_right _ hy, _, hrequest, hok⟩

theorem abides_remove (hop : op = .remove kind r n) (hheld : keys.members kind r ∉ held) :
    Abides keys order op (Later past) (remove keys kind r n) held past s := by
  refine (abides_changeMembers hheld (fun _ h => (Option.some.inj h).symm) ?_
    fun h => nomatch h).mono (fun _ _ _ _ h => h) ?_
  · intro past' ms ms' _ hchange
    dsimp only at hchange
    split_ifs at hchange
    cases hchange
    subst hop
    exact ⟨_, .remove, rfl⟩
  · rintro _ _ _ ⟨later, rfl, -⟩
    exact List.prefix_append ..

/-! ### Realms -/

/-- New members that are found fit have different names. -/
theorem abides_checkNewMembers (kind : Kind) (seen : List String) (as : List kind.Record) :
    Abides keys order op (fun _ past' _ => past <+: past' ∧ (as.map Principal.name).Nodup ∧
        ∀ a ∈ as, Principal.name a ∉ seen)
      (checkNewMembers keys seen as) held past s := by
  induction as generalizing seen past s with
  | nil =>
      exact Plan.abides_pure fun _ _ => ⟨List.prefix_refl _, List.nodup_nil, fun a ha => nomatch ha⟩
  | cons a rest ih =>
      unfold checkNewMembers
      dsimp only
      split_ifs with hseen
      · exact Plan.abides_fail _
      refine abides_look (looks_fetch kind.Record _) fun stored past₁ s₁ hpast₁ _ => ?_
      refine abides_known fun _ _ => ?_
      refine (ih (Principal.name a :: seen)).mono (fun _ _ _ _ h => h) ?_
      rintro _ past₂ _ ⟨hpast₂, hnodup, hrest⟩
      refine ⟨hpast₁.trans hpast₂, List.nodup_cons.mpr ⟨fun hmem => ?_, hnodup⟩, fun b hb => ?_⟩
      · obtain ⟨b, hb, heq⟩ := List.mem_map.mp hmem
        exact hrest b hb (by simp [heq])
      · rcases List.mem_cons.mp hb with rfl | hb
        · exact hseen
        · exact fun hmem => hrest b hb (by simp [hmem])

theorem abides_storeAll (kind : Kind) {as : List kind.Record}
    (h : ∀ a ∈ as, .record kind (Principal.name a) ∈ op.creates)
    (hheld : ∀ n, keys.record kind n ∉ held) :
    Abides keys order op (Later past) (storeAll keys as) held past s := by
  induction as generalizing past s with
  | nil => exact Plan.abides_pure fun _ _ => List.prefix_refl _
  | cons a rest ih =>
      refine Plan.abides_bind (abides_store (h a (by simp)) (hheld _) _) fun _ past₁ _ hpast₁ => ?_
      refine (ih fun b hb => h b (by simp [hb])).mono (fun _ _ _ _ h => h) ?_
      exact fun _ _ _ hpast₂ => List.IsPrefix.trans hpast₁ hpast₂

theorem abides_resetMembers (kind : Kind) {payload : List UInt8} {realm : Realm}
    (hop : op = .createRealm payload) (hrealm : realmOfRequest payload = .ok realm)
    (hnames : (names (newMembers kind realm)).Nodup)
    (hheld : keys.members kind realm.name ∉ held) :
    Abides keys order op (Later past)
      (resetMembers keys (keys.members kind realm.name) (newMembers kind realm)) held past s := by
  refine (abides_changeMembers hheld ?_ ?_ ?_).mono (fun _ _ _ _ h => h) ?_
  · exact fun _ h => nomatch h
  · intro past' ms ms' _ hchange
    obtain rfl : newMembers kind realm = ms' := by
      split_ifs at hchange <;> cases hchange
      rfl
    subst hop
    exact ⟨_, .create hrealm hnames, rfl⟩
  · intro _ s' ms ms' _ _
    refine .inr (.inr ?_)
    rw [hop, Operation.creates, hrealm]
    exact List.mem_cons_self
  · rintro _ _ _ ⟨later, rfl, -⟩
    exact List.prefix_append ..

theorem abides_createRealm {payload : List UInt8} (hop : op = .createRealm payload) :
    Abides keys order op (Later past) (createRealm keys payload) [] past s := by
  refine abides_known fun realm hrealm => ?_
  refine abides_known fun _ hname => ?_
  have hname := checkRealmName_eq_ok_iff.mp hname
  have hcreates : op.creates =
      .realm realm.name :: (realm.clients.map fun c => .record .client (Principal.name c)) ++
        realm.users.map fun u => .record .user (Principal.name u) := by
    rw [hop, Operation.creates, hrealm]
  refine abides_look (looks_realmExists _) fun found past₁ s₁ hpast₁ _ => ?_
  split_ifs
  · exact Plan.abides_fail _
  refine Plan.abides_bind (abides_checkNewMembers .client [] realm.clients) ?_
  rintro _ past₂ s₂ ⟨hpast₂, hclients, -⟩
  refine Plan.abides_bind (abides_checkNewMembers .user [] realm.users) ?_
  rintro _ past₃ s₃ ⟨hpast₃, husers, -⟩
  refine Plan.abides_bind (abides_storeAll .client (fun c hc => ?_) fun _ => List.not_mem_nil)
    fun _ past₄ s₄ hpast₄ => ?_
  · rw [hcreates]
    exact List.mem_append_left _ (List.mem_cons_of_mem _ (List.mem_map_of_mem hc))
  refine Plan.abides_bind (abides_storeAll .user (fun u hu => ?_) fun _ => List.not_mem_nil)
    fun _ past₅ s₅ hpast₅ => ?_
  · rw [hcreates]
    exact List.mem_append_right _ (List.mem_map_of_mem hu)
  refine Plan.abides_bind (abides_resetMembers .client hop hrealm ?_ List.not_mem_nil)
    fun _ past₆ s₆ hpast₆ => ?_
  · rw [newMembers, names, List.map_map]
    exact hclients
  refine Plan.abides_bind (abides_resetMembers .user hop hrealm ?_ List.not_mem_nil)
    fun _ past₇ s₇ hpast₇ => ?_
  · rw [newMembers, names, List.map_map]
    exact husers
  have hpast : past <+: past₇ := hpast₁.trans (hpast₂.trans (hpast₃.trans
    (List.IsPrefix.trans hpast₄ (List.IsPrefix.trans hpast₅ (List.IsPrefix.trans hpast₆ hpast₇)))))
  refine Plan.abides_bind (Q := Later past)
    (Plan.abides_ask (fun _ _ => ?_) fun _ _ _ _ _ _ => ?_)
    fun _ _ _ hlater => Plan.abides_pure fun _ _ => hlater
  · refine .create (x := .realm realm.name) hname ?_
    rw [hcreates]
    exact List.mem_cons_self
  · exact hpast.trans (List.prefix_append ..)

theorem abides_updateRealm {payload : List UInt8} (hop : op = .updateRealm n payload) :
    Abides keys order op (Later past) (updateRealm keys n payload) held past s := by
  refine abides_known fun realm _ => ?_
  split_ifs with hname
  · exact Plan.abides_fail _
  refine Plan.abides_bind (abides_requireRealm n) ?_
  rintro _ past₁ s₁ ⟨hpast₁, hfound, -⟩
  have hupdates : Subject.realm n ∈ op.updates := by
    rw [hop]
    exact List.mem_singleton_self _
  refine Plan.abides_bind (Q := Later past)
    (Plan.abides_ask (fun _ _ => ?_) fun _ _ _ _ _ _ => ?_)
    fun _ _ _ hlater => Plan.abides_pure fun _ _ => hlater
  · rw [not_not.mp hname]
    exact .update hupdates hfound
  · exact hpast₁.trans (List.prefix_append ..)

theorem abides_deleteRealm (hop : op = .deleteRealm n) :
    Abides keys order op (Later past) (deleteRealm keys n) [] past s := by
  refine Plan.abides_bind (abides_requireRealm n) ?_
  rintro _ past₁ s₁ ⟨hpast₁, ⟨-, -, -, hname, -⟩, -⟩
  refine Plan.abides_locked (P := Later past) (fun h => nomatch h) (fun s₂ _ => ?_)
    fun _ _ _ _ h _ => h
  refine Plan.abides_locked (P := Later past) (fun h => ?_) (fun s₃ _ => ?_)
    fun _ _ _ _ h _ => h
  · have hkind := (keys.members_inj (List.mem_singleton.mp h)).1
    cases hkind
  refine Plan.abides_bind (Q := Later past)
    (Plan.abides_ask (fun _ _ => ?_) fun _ _ _ _ _ _ => ?_)
    fun _ _ _ hlater => Plan.abides_pure fun _ _ => hlater
  · refine .deleteRealm hop hname fun kind => ?_
    cases kind <;> simp
  · exact hpast₁.trans (List.prefix_append ..)

/-! ### Operations -/

variable (keys) in
/-- An operation that put a member into a list has done so when it succeeds. -/
def Ends (op : Operation) (_ : Answer) (past : List (Exchange MemoryStore)) (_ : MemoryStore) :
    Prop :=
  ∀ kind r n, op = .add kind r n → ∃ y ∈ past, ∃ entries,
    y.request = .setList (keys.members kind r) entries ∧ y.reply.isOk = true

/-- An operation whose plan is this one ends by naming what it has got. -/
theorem abides_answer {p : Plan α} {f : α → Answer} (hp : Abides keys order op Q p [] [] s)
    (hop : ∀ kind r n, op ≠ .add kind r n) :
    Abides keys order op (Ends keys op) (do return f (← p)) [] [] s :=
  Plan.abides_bind hp fun _ _ _ _ =>
    Plan.abides_pure fun _ _ kind r n h => absurd h (hop kind r n)

/-- **Every operation requests only what it may**, whatever others do to the store that they
may do too. -/
theorem abides_plan (op : Operation) (s : MemoryStore) :
    Abides keys order op (Ends keys op) (plan keys op) [] [] s := by
  cases op with
  | getRealm n => exact abides_answer (abides_looks (looks_getRealm n)) fun _ _ _ h => nomatch h
  | getRealmWithMembers n =>
      exact abides_answer (abides_looks (looks_getRealmWithMembers n)) fun _ _ _ h => nomatch h
  | createRealm payload => exact abides_answer (abides_createRealm rfl) fun _ _ _ h => nomatch h
  | updateRealm n payload => exact abides_answer (abides_updateRealm rfl) fun _ _ _ h => nomatch h
  | deleteRealm n => exact abides_answer (abides_deleteRealm rfl) fun _ _ _ h => nomatch h
  | get kind n =>
      exact abides_answer (abides_looks (looks_get kind.Record n)) fun _ _ _ h => nomatch h
  | getFrom kind r n =>
      exact abides_answer (abides_looks (looks_getFrom kind.Record r n)) fun _ _ _ h => nomatch h
  | getUserById r id =>
      exact abides_answer (abides_looks (looks_getUserById r id)) fun _ _ _ h => nomatch h
  | getAllFrom kind r =>
      exact abides_answer (abides_looks (looks_getAllFrom kind.Record r)) fun _ _ _ h => nomatch h
  | create kind payload =>
      exact abides_answer (abides_create rfl fun _ h => nomatch h) fun _ _ _ h => nomatch h
  | update kind n payload => exact abides_answer (abides_update rfl) fun _ _ _ h => nomatch h
  | delete kind n =>
      exact abides_answer (abides_delete rfl fun _ h => nomatch h) fun _ _ _ h => nomatch h
  | add kind r n =>
      refine Plan.abides_bind (abides_add rfl fun h => nomatch h) fun _ past' _ hpast => ?_
      refine Plan.abides_pure fun _ _ kind' r' n' hop => ?_
      cases hop
      exact hpast
  | remove kind r n =>
      exact abides_answer (abides_remove rfl fun h => nomatch h) fun _ _ _ h => nomatch h

end Keyed

end IdentityStore
