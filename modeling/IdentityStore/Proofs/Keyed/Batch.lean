/-
All members of a realm, read with one request.

The texts under the keys of all members are asked for at once, in which a key that holds a list
answers like one that holds nothing.  They come in the order of the list, and so do the records
that they spell: `recordsFound` says what a store comes to in this way, and
`run_getAllFrom_of_membersOf` that it is what is answered.
-/
import IdentityStore.Proofs.Keyed.Conduct

namespace IdentityStore.Keyed

open MemoryStore (answerIn)

variable {keys : KeySpace} {order : ScanOrder} {s s' : MemoryStore} {kind : Kind} {r : String}
  {ms : List Member}

theorem textOrNone_eq_some_iff {key text : String} :
    s.textOrNone key = some text ↔ s.entries[key]? = some (.text text) := by
  unfold MemoryStore.textOrNone
  rcases s.entries[key]? with _ | ⟨found⟩ | entries
  · exact ⟨nofun, nofun⟩
  · exact ⟨fun h => by cases h; rfl, fun h => by cases h; rfl⟩
  · exact ⟨nofun, nofun⟩

/-- The members with the texts that are found under their keys. -/
def found (keys : KeySpace) (s : MemoryStore) (kind : Kind) (ms : List Member) :
    List (Member × Option String) :=
  ms.zip (ms.map fun m => s.textOrNone (keys.record kind m.name))

theorem found_cons (m : Member) (rest : List Member) : found keys s kind (m :: rest)
    = (m, s.textOrNone (keys.record kind m.name)) :: found keys s kind rest := rfl

/-- The members have records, which are stored in these words and are read as `as`. -/
abbrev Spelled (keys : KeySpace) (s : MemoryStore) (kind : Kind) (ms : List Member)
    (as : List kind.Record) : Prop :=
  List.Forall₂ (fun m a => ∃ text, s.entries[keys.record kind m.name]? = some (.text text) ∧
    Principal.ofPayload (Utf8.ofString text) = .ok a) ms as

/-- No name is missing and all texts spell records just if each of them does. -/
theorem sortFound_eq_ok_iff {as : List kind.Record} :
    sortFound keys kind.Record (found keys s kind ms) = .ok (as, []) ↔
      Spelled keys s kind ms as := by
  constructor
  · intro h
    induction ms generalizing as with
    | nil =>
        cases h
        exact .nil
    | cons m rest ih =>
        rw [found_cons] at h
        rcases htext : s.textOrNone (keys.record kind m.name) with _ | text
        · rw [htext] at h
          obtain ⟨⟨_, missing⟩, -, hall⟩ := Json.exists_of_bind_eq_ok h
          cases hall
        · rw [htext] at h
          obtain ⟨a, ha, h⟩ := Json.exists_of_bind_eq_ok h
          obtain ⟨⟨_, missing⟩, hrest, hall⟩ := Json.exists_of_bind_eq_ok h
          cases hall
          have hentry := textOrNone_eq_some_iff.mp htext
          exact .cons ⟨text, hentry, Json.eq_ok_of_mapError ha⟩ (ih hrest)
  · intro h
    induction h with
    | nil => rfl
    | cons hm _ ih =>
        obtain ⟨text, hentry, hread⟩ := hm
        rw [found_cons, textOrNone_eq_some_iff.mpr hentry, sortFound, ih, decode, hread]
        rfl

/-- The records of all members, from what is found. -/
def recordsFound (keys : KeySpace) (s : MemoryStore) (kind : Kind) (r : String)
    (ms : List Member) : Except StorageError (List kind.Record) := do
  let (records, missing) ← sortFound keys kind.Record (found keys s kind ms)
  if missing = [] then return records else throw (.inconsistent r kind.entity missing)

theorem recordsFound_eq_ok_iff {as : List kind.Record} :
    recordsFound keys s kind r ms = .ok as ↔ Spelled keys s kind ms as := by
  rw [← sortFound_eq_ok_iff]
  constructor
  · intro h
    obtain ⟨⟨records, missing⟩, hsort, h⟩ := Json.exists_of_bind_eq_ok h
    dsimp only at h
    split_ifs at h with hmissing
    · cases h
      rw [hsort, hmissing]
  · intro h
    rw [recordsFound, h]
    rfl

/-- Once members are listed, the store is as it was, and it is online and holds them in the list. -/
theorem run_membersOf_eq_ok
    (h : (membersOf keys kind r).run (answerIn order) s = (.ok ms, s')) :
    s' = s ∧ s.online = true ∧ contents s (keys.members kind r) = some ms := by
  have hread : ∀ q : Request, q.isRead = true → (s.answerIn order q).2 = s := fun _ =>
    MemoryStore.answerIn_of_isRead
  refine ⟨(congrArg Prod.snd h).symm.trans ((looks_membersOf kind r).run_store hread), ?_⟩
  rcases Plan.run_bind_cases h with ⟨e, -, hx⟩ | ⟨_, s₁, hrequire, hload⟩
  · cases hx
  have hs₁ : s₁ = s :=
    (congrArg Prod.snd hrequire).symm.trans ((looks_requireRealm r).run_store hread)
  subst hs₁
  refine ⟨?_, contents_of_run_loadMembers hload⟩
  rcases Plan.run_bind_cases hload with ⟨e, -, hx⟩ | ⟨entries, s₂, hentries, -⟩
  · cases hx
  · exact MemoryStore.online_of_answerIn (Plan.run_ask_ok hentries)

/-- **What is answered are the records that are found**, once the members are listed. -/
theorem run_getAllFrom_of_membersOf
    (h : (membersOf keys kind r).run (answerIn order) s = (.ok ms, s')) :
    (getAllFrom keys kind.Record r).run (answerIn order) s
      = (recordsFound keys s kind r ms, s) := by
  obtain ⟨rfl, hon, -⟩ := run_membersOf_eq_ok h
  unfold getAllFrom recordsFound
  rw [Kind.kind_record, Plan.run_bind_ok h]
  by_cases hempty : ms = []
  · subst hempty
    rfl
  have htexts : (Plan.ask (.getMany (ms.map fun m => keys.record kind m.name))).run
      (answerIn order) s'
      = (.ok (ms.map fun m => s'.textOrNone (keys.record kind m.name)), s') := by
    rw [Plan.run_ask, MemoryStore.answerIn_getMany hon, List.map_map]
    rfl
  rw [if_neg hempty, Plan.run_bind_ok htexts, Plan.bind_eq, Plan.run_bind, Plan.run_ofExcept,
    Kind.entity_record, show ms.zip (ms.map fun m => s'.textOrNone (keys.record kind m.name))
      = found keys s' kind ms from rfl]
  rcases sortFound keys kind.Record (found keys s' kind ms) with e | ⟨records, missing⟩
  · rfl
  · dsimp only [bind, Except.bind]
    split_ifs <;> rfl

end IdentityStore.Keyed
