/-
Members read all at once and one by one.

There are two ways to the records of a realm's members.  One asks for all the keys in a single
request, in which a key that holds a list answers like one that holds nothing; the other asks for
one key after the other, and a list is an error.  Nothing is assumed here of what the keys hold,
but that the realm is found and the list of its members is read.

Put back onto the list of members, the texts are gone through once, and a text that spells no
record ends this at once, whatever was missing before it.  So there are three ways for it to end,
and each is told from what lies under the keys: `sortFound_eq_ok_iff`, `sortFound_of_garbled` and
`sortFound_of_legible`.
-/
import IdentityStore.Proofs.Keyed.Dangling

namespace IdentityStore.Keyed

open IdentityStore.Membership (names)
open MemoryStore (answerIn)

variable {keys : KeySpace} {order : ScanOrder} {s : MemoryStore} {kind : Kind} {n r : String}
  {m : Member} {ms before rest : List Member} {fault : PayloadFault}

/-- A text lies under the key of a record, and it spells no record. -/
def Garbled (keys : KeySpace) (s : MemoryStore) (kind : Kind) (n : String)
    (fault : PayloadFault) : Prop :=
  ∃ text, s.entries[keys.record kind n]? = some (.text text) ∧
    Principal.ofPayload (α := kind.Record) (Utf8.ofString text) = .error fault

instance : Decidable (HasText keys s kind n) := decidable_of_iff _ hasText_iff.symm

/-! ### One by one -/

/-- What lies under the key of a record comes to. -/
def recordFound (keys : KeySpace) (s : MemoryStore) (kind : Kind) (n : String) :
    Except StorageError kind.Record :=
  match s.entries[keys.record kind n]? with
  | none => .error (.notFound kind.entity n)
  | some (.text text) => decode kind.Record (keys.record kind n) text
  | some (.list _) => .error (.ofStore (.wrongType (keys.record kind n)))

theorem run_get_eq (hon : s.online = true) (kind : Kind) (n : String) :
    (get keys kind.Record n).run (answerIn order) s = (recordFound keys s kind n, s) := by
  have hask : (Plan.ask (.get (keys.record kind n))).run (answerIn order) s
      = ((s.text? (keys.record kind n)).mapError .ofStore, s) := by
    rw [Plan.run_ask, MemoryStore.answerIn_get hon]
  unfold get fetch recordFound
  rw [Kind.kind_record, Kind.entity_record]
  dsimp only
  rw [Plan.bind_eq, Plan.bind_eq, Plan.run_bind, Plan.run_bind, hask, MemoryStore.text?]
  rcases s.entries[keys.record kind n]? with _ | ⟨text⟩ | entries
  · rfl
  · dsimp only [Except.mapError]
    rw [Plan.run_ofExcept]
    rcases decode kind.Record (keys.record kind n) text with e | a <;> rfl
  · rfl

theorem recordFound_eq_ok_iff {a : kind.Record} : recordFound keys s kind n = .ok a ↔
    ∃ text, s.entries[keys.record kind n]? = some (.text text) ∧
      Principal.ofPayload (Utf8.ofString text) = .ok a := by
  unfold recordFound
  constructor
  · rcases s.entries[keys.record kind n]? with _ | ⟨text⟩ | entries <;> intro h
    · cases h
    · exact ⟨text, rfl, Json.eq_ok_of_mapError h⟩
    · cases h
  · rintro ⟨text, hentry, hread⟩
    rw [hentry]
    show decode kind.Record _ text = _
    rw [decode, hread]
    rfl

theorem recordFound_of_garbled (h : Garbled keys s kind n fault) :
    recordFound keys s kind n
      = .error (.corrupt kind.entity (keys.record kind n) fault.message) := by
  obtain ⟨text, hentry, hread⟩ := h
  unfold recordFound
  rw [hentry]
  dsimp only
  rw [decode, hread, Kind.entity_record]
  rfl

/-! ### All at once -/

/-- Where no text is garbled, the names that have no text are those that are missing. -/
theorem sortFound_of_legible (h : ∀ m ∈ ms, ∀ fault, ¬ Garbled keys s kind m.name fault) :
    ∃ as, sortFound keys kind.Record (found keys s kind ms)
      = .ok (as, names (ms.filter fun m => ¬ HasText keys s kind m.name)) := by
  induction ms with
  | nil => exact ⟨[], rfl⟩
  | cons m rest ih =>
      obtain ⟨as, hrest⟩ := ih fun m' hm' => h m' (List.mem_cons_of_mem m hm')
      rw [found_cons]
      rcases htext : s.textOrNone (keys.record kind m.name) with _ | text
      · have hm : ¬ HasText keys s kind m.name := by simp [hasText_iff, htext]
        refine ⟨as, ?_⟩
        rw [sortFound, hrest, List.filter_cons_of_pos (by simpa using hm)]
        rfl
      · have hm : HasText keys s kind m.name := by simp [hasText_iff, htext]
        rcases hread : Principal.ofPayload (α := kind.Record) (Utf8.ofString text) with fault | a
        · exact absurd ⟨text, textOrNone_eq_some_iff.mp htext, hread⟩
            (h m List.mem_cons_self fault)
        · refine ⟨a :: as, ?_⟩
          rw [sortFound, decode, hread, hrest, List.filter_cons_of_neg (by simpa using hm)]
          rfl

/-- The first garbled text ends it, whatever is missing. -/
theorem sortFound_of_garbled
    (hbefore : ∀ b ∈ before, ∀ fault, ¬ Garbled keys s kind b.name fault)
    (hm : Garbled keys s kind m.name fault) :
    sortFound keys kind.Record (found keys s kind (before ++ m :: rest))
      = .error (.corrupt kind.entity (keys.record kind m.name) fault.message) := by
  induction before with
  | nil =>
      obtain ⟨text, hentry, hread⟩ := hm
      rw [List.nil_append, found_cons, textOrNone_eq_some_iff.mpr hentry, sortFound, decode, hread,
        Kind.kind_record, Kind.entity_record]
      rfl
  | cons b before ih =>
      have hrest := ih fun b' hb' => hbefore b' (List.mem_cons_of_mem b hb')
      rw [List.cons_append, found_cons]
      rcases htext : s.textOrNone (keys.record kind b.name) with _ | text
      · rw [sortFound, hrest]
        rfl
      · rcases hread : Principal.ofPayload (α := kind.Record) (Utf8.ofString text) with fault' | a
        · exact absurd ⟨text, textOrNone_eq_some_iff.mp htext, hread⟩
            (hbefore b List.mem_cons_self fault')
        · rw [sortFound, decode, hread, hrest]
          rfl

/-- A look-up that succeeds leaves the store as it is. -/
theorem run_eq_of_looks {α : Type} {p : Plan α} {x : Except StorageError α} (hp : p.Looks)
    (h : (p.run (answerIn order) s).1 = x) : p.run (answerIn order) s = (x, s) :=
  Prod.ext h (hp.run_store fun _ => MemoryStore.answerIn_of_isRead)

theorem run_membersOf_of_realm
    (hrealm : ((realmExists keys r).run (answerIn order) s).1 = .ok true)
    (hms : ((loadMembers (keys.members kind r)).run (answerIn order) s).1 = .ok ms) :
    (membersOf keys kind r).run (answerIn order) s = (.ok ms, s) := by
  have hrequire : (requireRealm keys r).run (answerIn order) s = (.ok (), s) := by
    unfold requireRealm
    rw [Plan.run_bind_ok (run_eq_of_looks (looks_realmExists r) hrealm)]
    rfl
  unfold membersOf
  rw [Plan.run_bind_ok hrequire, run_eq_of_looks (looks_loadMembers _) hms]

/-! ### Both ways -/

/-- An operation that is answered with what a plan ends with. -/
theorem run_answer {α : Type} {p : Plan α} {f : α → Answer} {x : Except StorageError α}
    (h : p.run (answerIn order) s = (x, s)) :
    (do return f (← p) : Plan Answer).run (answerIn order) s = (x.map f, s) := by
  rcases x with e | a
  · exact Plan.run_bind_error h
  · exact Plan.run_bind_ok h

/-- A success that is wrapped up comes from that success. -/
theorem map_eq_ok_iff {α β : Type} {f : α → β} {x : Except StorageError α} {a : α}
    (hf : ∀ a b, f a = f b → a = b) : x.map f = .ok (f a) ↔ x = .ok a := by
  rcases x with e | b
  · exact ⟨nofun, nofun⟩
  · constructor
    · exact fun h => congrArg _ (hf b a (Except.ok.inj h))
    · exact fun h => congrArg _ (congrArg f (Except.ok.inj h))

/-- **Reading all members at once agrees with reading one after the other.**  Whatever a store
holds, let a realm be there, and let the list of its members be read.  Then

* all records are given just if each of them is given when it is asked for alone, and they are
  given in the order of the list;
* if a text under the key of a listed name spells no record, the error is that of the first
  such name, also if others are missing, and it is the error that the name has alone;
* otherwise the names are told, in the order of the list, under whose keys there is no text. -/
theorem all_at_once_agrees (keys : KeySpace) (order : ScanOrder) (s : MemoryStore) (kind : Kind)
    (r : String) (ms : List Member)
    (hrealm : ((realmExists keys r).run (answerIn order) s).1 = .ok true)
    (hms : ((loadMembers (keys.members kind r)).run (answerIn order) s).1 = .ok ms) :
    let all := (plan keys (.getAllFrom kind r)).run (answerIn order) s
    let one (m : Member) := (plan keys (.get kind m.name)).run (answerIn order) s
    (∀ as, all = (.ok (.many kind as), s) ↔
      List.Forall₂ (fun m a => one m = (.ok (.one kind a), s)) ms as) ∧
    (∀ before m rest fault, ms = before ++ m :: rest →
      (∀ b ∈ before, ∀ fault, ¬ Garbled keys s kind b.name fault) →
      Garbled keys s kind m.name fault →
      let error := StorageError.corrupt kind.entity (keys.record kind m.name) fault.message
      all = (.error error, s) ∧ one m = (.error error, s)) ∧
    ((∀ m ∈ ms, ∀ fault, ¬ Garbled keys s kind m.name fault) →
      (¬ ∃ as, List.Forall₂ (fun m a => one m = (.ok (.one kind a), s)) ms as) →
      all = (.error (.inconsistent r kind.entity
        (names (ms.filter fun m => ¬ HasText keys s kind m.name))), s)) := by
  intro all one
  have hmembers := run_membersOf_of_realm hrealm hms
  obtain ⟨-, hon, -⟩ := run_membersOf_eq_ok hmembers
  have hall : all = ((recordsFound keys s kind r ms).map (.many kind), s) :=
    run_answer (run_getAllFrom_of_membersOf hmembers)
  have hone : ∀ m, one m = ((recordFound keys s kind m.name).map (.one kind), s) :=
    fun m => run_answer (run_get_eq hon kind m.name)
  have hsingle : ∀ m a, one m = (.ok (.one kind a), s) ↔
      ∃ text, s.entries[keys.record kind m.name]? = some (.text text) ∧
        Principal.ofPayload (Utf8.ofString text) = .ok a := fun m a => by
    rw [hone, ← recordFound_eq_ok_iff, Prod.mk.injEq, and_iff_left rfl]
    exact map_eq_ok_iff fun _ _ h => by cases h; rfl
  have hmany : ∀ as, all = (.ok (.many kind as), s) ↔
      List.Forall₂ (fun m a => one m = (.ok (.one kind a), s)) ms as := fun as => by
    rw [hall, Prod.mk.injEq, and_iff_left rfl,
      map_eq_ok_iff (fun _ _ h => by cases h; rfl), recordsFound_eq_ok_iff]
    simp only [hsingle]
  refine ⟨hmany, ?_, ?_⟩
  · intro before m rest fault hsplit hbefore hm
    constructor
    · rw [hall, hsplit, recordsFound, sortFound_of_garbled hbefore hm]
      rfl
    · rw [hone, recordFound_of_garbled hm]
      rfl
  · intro hlegible hnot
    obtain ⟨as, hsort⟩ := sortFound_of_legible hlegible
    have hmissing : names (ms.filter fun m => ¬ HasText keys s kind m.name) ≠ [] := fun hnil =>
      hnot ⟨as, (hmany as).mp (by
        rw [hall, recordsFound_eq_ok_iff.mpr (sortFound_eq_ok_iff.mp (hnil ▸ hsort))]
        rfl)⟩
    rw [hall, recordsFound, hsort]
    dsimp only [bind, Except.bind]
    rw [if_neg hmissing]
    rfl

/-- The realm lists a client that is there, one that is not, and one whose text spells none. -/
def mixedStore : MemoryStore :=
  (acmeStore.put (KeySpace.default.record .client "old") (.text "\x7b\x7d")).put
    (KeySpace.default.members .client "acme")
    (.list ([[⟨.nil, "web"⟩], [⟨.nil, "gone"⟩, ⟨.nil, "old"⟩]].map Member.writeEntry))

theorem all_at_once_agrees_acme :
    let ms : List Member := [⟨.nil, "web"⟩, ⟨.nil, "gone"⟩, ⟨.nil, "old"⟩]
    let error := StorageError.corrupt "Client" (KeySpace.default.record .client "old")
      (PayloadFault.unreadable (.missingField "id")).message
    ((realmExists .default "acme").run (answerIn .rising) mixedStore).1 = .ok true ∧
      ((loadMembers (KeySpace.default.members .client "acme")).run (answerIn .rising)
        mixedStore).1 = .ok ms ∧
      (plan .default (.getAllFrom .client "acme")).run (answerIn .rising) mixedStore
        = (.error error, mixedStore) ∧
      (plan .default (.get .client "old")).run (answerIn .rising) mixedStore
        = (.error error, mixedStore) := by
  intro ms error
  have hrealm : ((realmExists .default "acme").run (answerIn .rising) mixedStore).1
      = .ok true := by decide +kernel
  have hms : ((loadMembers (KeySpace.default.members .client "acme")).run (answerIn .rising)
      mixedStore).1 = .ok ms := by decide +kernel
  have hold : Garbled .default mixedStore .client "old"
      (.unreadable (.missingField "id")) :=
    ⟨"\x7b\x7d", by decide +kernel, by decide +kernel⟩
  obtain ⟨-, hgarbled, -⟩ :=
    all_at_once_agrees .default .rising mixedStore .client "acme" ms hrealm hms
  refine ⟨hrealm, hms, hgarbled [⟨.nil, "web"⟩, ⟨.nil, "gone"⟩] ⟨.nil, "old"⟩ [] _ rfl ?_ hold⟩
  rintro b hb fault ⟨text, hentry, hread⟩
  rcases List.mem_pair.mp hb with rfl | rfl
  · have hweb : mixedStore.entries[KeySpace.default.record .client "web"]? = some (.text web) := by
      decide +kernel
    have hok : (Principal.ofPayload (α := Client) (Utf8.ofString web)).isOk = true := by
      decide +kernel
    cases hweb.symm.trans hentry
    rw [hread] at hok
    cases hok
  · have hgone : mixedStore.entries[KeySpace.default.record .client "gone"]? = none := by
      decide +kernel
    cases hgone.symm.trans hentry

end IdentityStore.Keyed
