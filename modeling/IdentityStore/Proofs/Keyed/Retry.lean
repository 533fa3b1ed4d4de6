/-
Operations that are tried again.

Most operations write once, and last, so that an attempt that is cut short leaves the store
as it was.  Two write more often.  When a record is deleted, its name is taken out of one
list after the other before the record goes; and when a realm is created, its members and
lists are written before its document.

Nothing is rolled back, and nothing needs to be.  The last write is the one that the
operation looks for when it begins, so the next attempt begins like the first; and a list or
a record that was written before is found as it should be.  `Lasting` says so of one write,
and `Plan.Resumable` puts the writes together.  None of it needs a store in good order:
whatever lies under a key stops every attempt at the same place.
-/
import IdentityStore.Proofs.Keyed.Conduct
import IdentityStore.Proofs.Plan.Retry

namespace IdentityStore.Keyed

open IdentityStore.Membership (names)
open MemoryStore (answerIn answerIn_of_isRead)
open Plan (AllOrNothing Idle Resumable inTurn)

variable {keys : KeySpace} {order : ScanOrder} {s s' : MemoryStore} {α β : Type}

/-! ### Looking first -/

theorem whole_of_looks {p : Plan α} (h : p.Looks) : p.AllOrNothing (answerIn order) :=
  h.allOrNothing fun _ _ => answerIn_of_isRead

theorem whole_look {p : Plan α} {f : α → Plan β} (hp : p.Looks)
    (hf : ∀ a, (f a).AllOrNothing (answerIn order)) : (p >>= f).AllOrNothing (answerIn order) :=
  Plan.allOrNothing_look (fun _ _ => answerIn_of_isRead) hp hf

theorem whole_known {x : Except StorageError α} {f : α → Plan β}
    (hf : ∀ a, (f a).AllOrNothing (answerIn order)) :
    (Plan.ofExcept x >>= f).AllOrNothing (answerIn order) :=
  whole_look (Plan.looks_ofExcept x) hf

theorem whole_fail (e : StorageError) : (Plan.fail e : Plan α).AllOrNothing (answerIn order) :=
  Plan.allOrNothing_done _

/-- What plans that look come to when they succeed. -/
theorem passes_iff {p : Plan α} {f : α → Plan β} (hp : p.Looks) {b : β} :
    (p >>= f).run (answerIn order) s = (.ok b, s') ↔
      ∃ a, p.run (answerIn order) s = (.ok a, s) ∧ (f a).run (answerIn order) s = (.ok b, s') :=
  hp.run_bind_eq_ok fun _ _ => answerIn_of_isRead

theorem passes_known_iff {x : Except StorageError α} {f : α → Plan β} {b : β} :
    (Plan.ofExcept x >>= f).run (answerIn order) s = (.ok b, s') ↔
      ∃ a, x = .ok a ∧ (f a).run (answerIn order) s = (.ok b, s') := by
  simp only [passes_iff (Plan.looks_ofExcept x), Plan.run_ofExcept, Prod.mk.injEq, and_true]

/-- A single look at a store is answered alike by stores that hold the same. -/
theorem run_read_congr {r : Request} {a : r.Reply} (hr : r.isRead = true)
    (hsame : (s'.answerIn order r).1 = (s.answerIn order r).1)
    (h : (Plan.ask r).run (answerIn order) s = (.ok a, s)) :
    (Plan.ask r).run (answerIn order) s' = (.ok a, s') := by
  have hreply : (s.answerIn order r).1.mapError StorageError.ofStore = .ok a := congrArg Prod.fst h
  rw [Plan.run_ask, hsame, answerIn_of_isRead hr, hreply]

theorem run_has_of_online (hon : s.online = true) (key : String) :
    (Plan.ask (.has key)).run (answerIn order) s = (.ok (s.entries[key]?).isSome, s) := by
  rw [Plan.run_ask, MemoryStore.answerIn_has hon,
    Std.ExtTreeMap.contains_eq_isSome_getElem?]
  rfl

theorem run_get_of_text {key text : String} (hon : s.online = true)
    (h : s.entries[key]? = some (.text text)) :
    (Plan.ask (.get key)).run (answerIn order) s = (.ok (some text), s) := by
  rw [Plan.run_ask, MemoryStore.answerIn_get hon, MemoryStore.text?, h]
  rfl

/-! ### Writes that last -/

/-- A write that looks at one key and may give it an entry, and finds nothing to do where it
was made before. -/
structure Lasting (order : ScanOrder) (key : String) (p : Plan Unit) : Prop where
  whole : p.AllOrNothing (answerIn order)
  frame : ∀ {s s'}, p.run (answerIn order) s = (.ok (), s') →
    s' = s ∨ ∃ entry, s' = s.put key entry
  settles : ∀ {s s'}, p.run (answerIn order) s = (.ok (), s') → p.Idle (answerIn order) s'
  congr : ∀ {s s'}, s'.online = s.online → s'.entries[key]? = s.entries[key]? →
    p.Idle (answerIn order) s → p.Idle (answerIn order) s'

/-- Writes to different keys do not undo each other. -/
theorem Lasting.keeps {key key' : String} {p q : Plan Unit} (hp : Lasting order key p)
    (hq : Lasting order key' q) (hsame : key = key' → p = q)
    (hrun : q.run (answerIn order) s = (.ok (), s')) (hidle : p.Idle (answerIn order) s) :
    p.Idle (answerIn order) s' := by
  by_cases hkey : key = key'
  · obtain rfl := hsame hkey
    exact hq.settles hrun
  · rcases hq.frame hrun with rfl | ⟨entry, rfl⟩
    · exact hidle
    · refine hp.congr (MemoryStore.online_put ..) ?_ hidle
      rw [MemoryStore.getElem?_put, if_neg (Ne.symm hkey)]

/-! ### Lists -/

section Lists

variable {key : String} {change : List Member → Except StorageError (Option (List Member))}
  {changed : Option (List Member)} {ms : List Member}

/-- The store after a list was rewritten, or left. -/
def rewritten (s : MemoryStore) (key : String) : Option (List Member) → MemoryStore
  | none => s
  | some ms => s.put key (.list (Membership.toEntries ms))

/-- A list is read as its entries are. -/
theorem run_loadMembers_of_list {entries : List String} (hon : s.online = true)
    (h : s.list? key = .ok entries) :
    (loadMembers key).run (answerIn order) s
      = ((Membership.ofEntries entries).mapError
          fun fault => .corrupt "membership" key fault.message, s) := by
  have hask : (Plan.ask (.list key)).run (answerIn order) s = (.ok entries, s) := by
    rw [Plan.run_ask, MemoryStore.answerIn_list hon, h]
    rfl
  unfold loadMembers
  rw [Plan.run_bind_ok hask, Plan.run_ofExcept]

theorem run_loadMembers_of_contents (hon : s.online = true) (h : contents s key = some ms) :
    (loadMembers key).run (answerIn order) s = (.ok ms, s) := by
  unfold contents at h
  split at h
  · rename_i entries hentries
    rw [run_loadMembers_of_list hon hentries]
    rcases hms : Membership.ofEntries entries with fault | ms'
    · rw [hms] at h
      cases h
    · rw [hms] at h
      cases h
      rfl
  · cases h

/-- Members are written as the one entry of their list. -/
theorem run_writeMembers (hon : s.online = true) (key : String) (ms : List Member) :
    (Plan.ask (.setList key (Membership.toEntries ms))).run (answerIn order) s
      = (.ok (), s.put key (.list (Membership.toEntries ms))) := by
  rw [Membership.toEntries, Plan.run_ask, MemoryStore.answerIn_setList hon]
  rfl

theorem run_rewriteMembers_of_contents (hon : s.online = true) (hms : contents s key = some ms)
    (hchange : change ms = .ok changed) :
    (rewriteMembers key change).run (answerIn order) s = (.ok (), rewritten s key changed) := by
  unfold rewriteMembers
  rw [Plan.run_bind_ok (run_loadMembers_of_contents hon hms), hchange]
  cases changed with
  | none => rfl
  | some ms' => exact run_writeMembers hon key ms'

/-- What lay under a key that could be rewritten, and what became of it. -/
theorem of_run_rewriteMembers
    (h : (rewriteMembers key change).run (answerIn order) s = (.ok (), s')) :
    s.online = true ∧ ∃ ms changed, contents s key = some ms ∧ change ms = .ok changed ∧
      s' = rewritten s key changed := by
  unfold rewriteMembers at h
  obtain ⟨ms, hload, h⟩ := (passes_iff (looks_loadMembers key)).mp h
  obtain ⟨changed, hchange, -⟩ := passes_known_iff.mp h
  have hon : s.online = true := by
    obtain ⟨entries, hentries, -⟩ := (passes_iff (Plan.looks_ask rfl)).mp hload
    exact MemoryStore.online_of_answerIn (Plan.run_ask_ok hentries)
  have hms := contents_of_run_loadMembers hload
  refine ⟨hon, ms, changed, hms, hchange, ?_⟩
  have hrun : (rewriteMembers key change).run (answerIn order) s
      = (.ok (), rewritten s key changed) := run_rewriteMembers_of_contents hon hms hchange
  unfold rewriteMembers at hrun
  rw [(passes_iff (looks_loadMembers key)).mpr ⟨ms, hload, h⟩] at hrun
  exact congrArg Prod.snd hrun

theorem whole_rewriteMembers (key : String)
    (change : List Member → Except StorageError (Option (List Member))) :
    (rewriteMembers key change).AllOrNothing (answerIn order) := by
  refine whole_look (looks_loadMembers key) fun ms => whole_known fun changed => ?_
  cases changed with
  | none => exact Plan.allOrNothing_done _
  | some ms' => exact Plan.allOrNothing_ask _

theorem whole_changeMembers (key : String) (realm : Option String)
    (change : List Member → Except StorageError (Option (List Member))) :
    (changeMembers keys key realm change).AllOrNothing (answerIn order) := by
  cases realm with
  | none =>
      rw [changeMembers_none]
      exact (whole_rewriteMembers key change).locked
  | some name =>
      rw [changeMembers_some]
      exact (whole_look (looks_requireRealm name) fun _ => whole_rewriteMembers key change).locked

/-- **A change of a list lasts**, if it makes nothing of what it has made. -/
theorem lasting_changeMembers
    (hchange : ∀ ms ms', (names ms).Nodup → change ms = .ok (some ms') →
      (names ms').Nodup ∧ change ms' = .ok none) :
    Lasting order key (changeMembers keys key none change) where
  whole := whole_changeMembers key none change
  frame := by
    intro s s' hrun
    rw [changeMembers_none, Plan.run_locked] at hrun
    obtain ⟨-, ms, changed, -, -, rfl⟩ := of_run_rewriteMembers hrun
    cases changed with
    | none => exact .inl rfl
    | some ms' => exact .inr ⟨_, rfl⟩
  settles := by
    intro s s' hrun
    rw [changeMembers_none, Plan.run_locked] at hrun
    obtain ⟨hon, ms, changed, hms, hchanged, rfl⟩ := of_run_rewriteMembers hrun
    rw [Idle, changeMembers_none, Plan.run_locked]
    cases changed with
    | none => exact run_rewriteMembers_of_contents hon hms hchanged
    | some ms' =>
        obtain ⟨hnodup, hdone⟩ := hchange ms ms' (nodup_contents hms) hchanged
        have hentry : (rewritten s key (some ms')).entries[key]?
            = some (.list (Membership.toEntries ms')) := by
          rw [rewritten, MemoryStore.getElem?_put, if_pos rfl]
        refine run_rewriteMembers_of_contents ?_ (contents_of_entry hentry hnodup) hdone
        exact hon
  congr := by
    intro s s' honline hentry hidle
    rw [Idle, changeMembers_none, Plan.run_locked] at hidle ⊢
    obtain ⟨hon, ms, changed, hms, hchanged, hs⟩ := of_run_rewriteMembers hidle
    rw [run_rewriteMembers_of_contents (honline.trans hon) ((contents_congr hentry).trans hms)
      hchanged]
    cases changed with
    | none => rfl
    | some ms' =>
        have hput : s'.entries[key]? = some (.list (Membership.toEntries ms')) := by
          rw [hentry, hs, rewritten, MemoryStore.getElem?_put, if_pos rfl]
        rw [rewritten, MemoryStore.put_eq_self hput]

end Lists

/-! ### Records -/

section Records

variable {kind : Kind}

/-- Refuses a record if another identifier is stored under its name. -/
def checkStored (keys : KeySpace) {α : Type} [Principal α] (a : α) : Plan Unit := do
  let stored ← fetch keys α (Principal.name a)
  Plan.ofExcept (checkId stored a)

theorem looks_checkStored {α : Type} [Principal α] (a : α) : (checkStored keys a).Looks :=
  Plan.looks_bind (looks_fetch α _) fun _ => Plan.looks_ofExcept _

theorem store_eq (a : kind.Record) (text : String) :
    store keys a text = (checkStored keys a >>= fun _ =>
      Plan.ask (.set (keys.record kind (Principal.name a)) text)).locked
        (keys.record kind (Principal.name a)) := by
  unfold store checkStored
  rw [Kind.kind_record]
  exact congrArg (Plan.locked _) (Plan.bind_assoc _ _ _).symm

theorem whole_store (a : kind.Record) (text : String) :
    (store keys a text).AllOrNothing (answerIn order) := by
  rw [store_eq]
  exact (whole_look (looks_checkStored a) fun _ => Plan.allOrNothing_ask _).locked

theorem run_set_iff {key text : String} :
    (Plan.ask (.set key text)).run (answerIn order) s = (.ok (), s') ↔
      s.online = true ∧ s' = s.put key (.text text) := by
  refine ⟨fun h => ?_, fun ⟨hon, hs'⟩ => ?_⟩
  · have hon := MemoryStore.online_of_answerIn (Plan.run_ask_ok h)
    have hs' : (s.answerIn order (.set key text)).2 = s' := congrArg Prod.snd h
    rw [MemoryStore.after_set, if_pos hon] at hs'
    exact ⟨hon, hs'.symm⟩
  · rw [hs', Plan.run_ask, MemoryStore.answerIn_set hon]
    rfl

/-- When a record is stored, and what that comes to. -/
theorem run_store_iff {a : kind.Record} {text : String} :
    (store keys a text).run (answerIn order) s = (.ok (), s') ↔
      (checkStored keys a).Idle (answerIn order) s ∧ s.online = true ∧
        s' = s.put (keys.record kind (Principal.name a)) (.text text) := by
  rw [store_eq, Plan.run_locked, passes_iff (looks_checkStored a)]
  exact ⟨fun ⟨_, hcheck, hset⟩ => ⟨hcheck, run_set_iff.mp hset⟩,
    fun ⟨hcheck, hset⟩ => ⟨(), hcheck, run_set_iff.mpr hset⟩⟩

/-- Whether an identifier fits is told from the key of the record alone. -/
theorem checkStored_congr {a : kind.Record} (honline : s'.online = s.online)
    (hentry : s'.entries[keys.record kind (Principal.name a)]?
      = s.entries[keys.record kind (Principal.name a)]?)
    (h : (checkStored keys a).Idle (answerIn order) s) :
    (checkStored keys a).Idle (answerIn order) s' := by
  obtain ⟨stored, hfetch, hcheck⟩ := (passes_iff (looks_fetch _ _)).mp h
  obtain ⟨text, hget, hdecode⟩ := (passes_iff (Plan.looks_ask rfl)).mp hfetch
  have hsame : (s'.answerIn order
        (.get (keys.record (Principal.kind kind.Record) (Principal.name a)))).1
      = (s.answerIn order
        (.get (keys.record (Principal.kind kind.Record) (Principal.name a)))).1 := by
    rw [Kind.kind_record]
    simp only [answerIn, MemoryStore.answerOnline, MemoryStore.text?, honline, hentry]
    split_ifs <;> rfl
  have hcheck : checkId stored a = .ok () := congrArg Prod.fst hcheck
  refine (passes_iff (looks_fetch _ _)).mpr ⟨stored, ?_, by rw [Plan.run_ofExcept, hcheck]⟩
  refine (passes_iff (Plan.looks_ask rfl)).mpr ⟨text, run_read_congr rfl hsame hget, ?_⟩
  cases text with
  | none =>
      cases hdecode
      rfl
  | some text =>
      have hdecode : (decode kind.Record _ text).map some = .ok stored := congrArg Prod.fst hdecode
      dsimp only
      rw [Plan.run_ofExcept, hdecode]

/-- A record fits where it is stored already, in whatever words. -/
theorem checkStored_of_text {a b : kind.Record} {text : String} (hon : s.online = true)
    (hentry : s.entries[keys.record kind (Principal.name a)]? = some (.text text))
    (hread : Principal.ofPayload (Utf8.ofString text) = .ok b)
    (hid : Principal.id b = Principal.id a) : (checkStored keys a).Idle (answerIn order) s := by
  have hget : (Plan.ask (.get (keys.record (Principal.kind kind.Record)
      (Principal.name a)))).run (answerIn order) s = (.ok (some text), s) :=
    run_get_of_text hon (by rw [Kind.kind_record, hentry])
  refine (passes_iff (looks_fetch _ _)).mpr ⟨some b, ?_, ?_⟩
  · refine (passes_iff (Plan.looks_ask rfl)).mpr ⟨some text, hget, ?_⟩
    dsimp only
    rw [Plan.run_ofExcept, decode, hread]
    rfl
  · rw [Plan.run_ofExcept, checkId, if_pos hid]

/-- **A stored record lasts**, if it is read with its identifier. -/
theorem lasting_store {a b : kind.Record} {text : String}
    (hread : Principal.ofPayload (Utf8.ofString text) = .ok b)
    (hid : Principal.id b = Principal.id a) :
    Lasting order (keys.record kind (Principal.name a)) (store keys a text) where
  whole := whole_store a text
  frame hrun := .inr ⟨_, (run_store_iff.mp hrun).2.2⟩
  settles := by
    intro s s' hrun
    obtain ⟨-, hon, rfl⟩ := run_store_iff.mp hrun
    have hentry : (s.put (keys.record kind (Principal.name a)) (.text text)).entries[
        keys.record kind (Principal.name a)]? = some (.text text) := by
      rw [MemoryStore.getElem?_put, if_pos rfl]
    refine run_store_iff.mpr ⟨?_, hon, (MemoryStore.put_eq_self hentry).symm⟩
    exact checkStored_of_text hon hentry hread hid
  congr := by
    intro s s' honline hentry hidle
    obtain ⟨hcheck, hon, hs⟩ := run_store_iff.mp hidle
    refine run_store_iff.mpr ⟨checkStored_congr honline hentry hcheck, honline.trans hon, ?_⟩
    refine (MemoryStore.put_eq_self ?_).symm
    rw [hentry, hs, MemoryStore.getElem?_put, if_pos rfl]

end Records

/-! ### Creating realms -/

section Realms

variable {realm : Realm} {kind : Kind} {payload : List UInt8}

/-- What has to be found before a realm is created. -/
def checkRealm (keys : KeySpace) (payload : List UInt8) : Plan Realm := do
  let realm ← Plan.ofExcept (realmOfRequest payload)
  Plan.ofExcept (checkRealmName realm.name)
  if ← realmExists keys realm.name then Plan.fail (.duplicate "Realm" "name" realm.name)
  else do
    checkNewMembers keys [] realm.clients
    checkNewMembers keys [] realm.users
    return realm

/-- The records and lists that are written for a realm before its document is. -/
def realmSteps (keys : KeySpace) (realm : Realm) : List (Plan Unit) :=
  (realm.clients.map fun c => store keys c (Principal.write c)) ++
    (realm.users.map fun u => store keys u (Principal.write u)) ++
    [resetMembers keys (keys.members .client realm.name) (newMembers .client realm),
      resetMembers keys (keys.members .user realm.name) (newMembers .user realm)]

theorem storeAll_eq {α : Type} [Principal α] (as : List α) :
    storeAll keys as = inTurn (as.map fun a => store keys a (Principal.write a)) := by
  induction as with
  | nil => rfl
  | cons a rest ih => exact congrArg (fun p => store keys a _ >>= fun _ => p) ih

theorem createRealm_eq (keys : KeySpace) (payload : List UInt8) :
    createRealm keys payload = checkRealm keys payload >>= fun realm =>
      inTurn (realmSteps keys realm) >>= fun _ => putRealm keys realm >>= fun _ => pure realm := by
  unfold createRealm checkRealm realmSteps
  simp only [Plan.inTurn_append, ← storeAll_eq, inTurn, Plan.bind_eq, Plan.pure_eq, Plan.bind_assoc]
  -- past the question whether the realm exists the two go the same way
  refine congrArg (Plan.bind _) (funext fun realm => congrArg (Plan.bind _) (funext fun _ =>
    congrArg (Plan.bind _) (funext fun found => ?_)))
  cases found
  · simp only [Bool.false_eq_true, if_false, Plan.bind_assoc, Plan.bind_done_ok]
    rfl
  · rfl

theorem checkNewMembers_cons (seen : List String) (a : kind.Record) (rest : List kind.Record) :
    checkNewMembers keys seen (a :: rest) =
      if Principal.name a ∈ seen then
        Plan.fail (.duplicate (Principal.entity kind.Record) "name" (Principal.name a))
      else checkStored keys a >>= fun _ => checkNewMembers keys (Principal.name a :: seen) rest := by
  by_cases hseen : Principal.name a ∈ seen
  · rw [if_pos hseen]
    exact if_pos hseen
  · rw [if_neg hseen]
    exact (if_neg hseen).trans (Plan.bind_assoc _ _ _).symm

/-- New members are found fit if their names differ and each of them fits what is stored. -/
theorem idle_checkNewMembers_iff {seen : List String} {as : List kind.Record} :
    (checkNewMembers keys seen as).Idle (answerIn order) s ↔
      (as.map Principal.name).Nodup ∧
        ∀ a ∈ as, Principal.name a ∉ seen ∧ (checkStored keys a).Idle (answerIn order) s := by
  induction as generalizing seen with
  | nil =>
      refine ⟨fun _ => ⟨List.nodup_nil, fun a ha => nomatch ha⟩, fun _ => ?_⟩
      rfl
  | cons a rest ih =>
      rw [Idle, checkNewMembers_cons]
      split_ifs with hseen
      · refine ⟨fun h => (nomatch h), fun h => ?_⟩
        exact absurd hseen (h.2 a List.mem_cons_self).1
      rw [passes_iff (looks_checkStored a)]
      constructor
      · rintro ⟨_, ha, hrest⟩
        obtain ⟨hnodup, hfit⟩ := ih.mp hrest
        refine ⟨List.nodup_cons.mpr ⟨fun hmem => ?_, hnodup⟩, fun b hb => ?_⟩
        · obtain ⟨b, hb, hname⟩ := List.mem_map.mp hmem
          exact (hfit b hb).1 (by simp [hname])
        · rcases List.mem_cons.mp hb with rfl | hb
          · exact ⟨hseen, ha⟩
          · exact ⟨fun hmem => (hfit b hb).1 (by simp [hmem]), (hfit b hb).2⟩
      · rintro ⟨hnodup, hfit⟩
        obtain ⟨hname, hnodup⟩ := List.nodup_cons.mp hnodup
        refine ⟨(), (hfit a List.mem_cons_self).2, ih.mpr ⟨hnodup, fun b hb => ?_⟩⟩
        obtain ⟨hb', hidle⟩ := hfit b (List.mem_cons_of_mem _ hb)
        refine ⟨fun hmem => ?_, hidle⟩
        rcases List.mem_cons.mp hmem with hsame | hmem
        · exact hname (hsame ▸ List.mem_map_of_mem hb)
        · exact hb' hmem

/-- What is known once the check of a new realm has passed. -/
structure Passed (keys : KeySpace) (order : ScanOrder) (payload : List UInt8) (realm : Realm)
    (s : MemoryStore) : Prop where
  request : realmOfRequest payload = .ok realm
  name : isRealmName realm.name = true
  unknown : (realmExists keys realm.name).run (answerIn order) s = (.ok false, s)
  distinct : ∀ kind : Kind, ((Principal.ofRealm realm : List kind.Record).map Principal.name).Nodup
  fit : ∀ kind : Kind, ∀ a ∈ (Principal.ofRealm realm : List kind.Record),
    (checkStored keys a).Idle (answerIn order) s

theorem checkRealm_iff :
    (checkRealm keys payload).run (answerIn order) s = (.ok realm, s') ↔
      Passed keys order payload realm s ∧ s' = s := by
  have hmembers : ∀ kind : Kind, Plan.Idle (answerIn order)
      (checkNewMembers keys [] (Principal.ofRealm realm : List kind.Record)) s ↔
        ((Principal.ofRealm realm : List kind.Record).map Principal.name).Nodup ∧
          ∀ a ∈ (Principal.ofRealm realm : List kind.Record),
            (checkStored keys a).Idle (answerIn order) s := by
    intro kind
    rw [idle_checkNewMembers_iff]
    simp only [List.not_mem_nil, not_false_eq_true, true_and]
  constructor
  · intro h
    obtain ⟨r, hrequest, h⟩ := passes_known_iff.mp h
    obtain ⟨_, hname, h⟩ := passes_known_iff.mp h
    obtain ⟨found, hfound, h⟩ := (passes_iff (looks_realmExists _)).mp h
    cases found with
    | true => cases h
    | false =>
      obtain ⟨_, hclients, h⟩ := (passes_iff (looks_checkNewMembers _ _ _)).mp h
      obtain ⟨_, husers, h⟩ := (passes_iff (looks_checkNewMembers _ _ _)).mp h
      cases h
      refine ⟨⟨hrequest, checkRealmName_eq_ok_iff.mp hname, hfound, fun kind => ?_,
        fun kind => ?_⟩, rfl⟩
      · cases kind with
        | client => exact ((hmembers .client).mp hclients).1
        | user => exact ((hmembers .user).mp husers).1
      · cases kind with
        | client => exact ((hmembers .client).mp hclients).2
        | user => exact ((hmembers .user).mp husers).2
  · rintro ⟨h, rfl⟩
    refine passes_known_iff.mpr ⟨realm, h.request, passes_known_iff.mpr
      ⟨(), checkRealmName_eq_ok_iff.mpr h.name, ?_⟩⟩
    refine (passes_iff (looks_realmExists _)).mpr ⟨false, h.unknown, ?_⟩
    refine (passes_iff (looks_checkNewMembers _ _ _)).mpr ⟨(), (hmembers .client).mpr
      ⟨h.distinct _, h.fit _⟩, ?_⟩
    exact (passes_iff (looks_checkNewMembers _ _ _)).mpr ⟨(), (hmembers .user).mpr
      ⟨h.distinct _, h.fit _⟩, rfl⟩

/-- A step towards a realm, and the key that it writes. -/
inductive RealmStep (keys : KeySpace) (realm : Realm) : String → Plan Unit → Prop
  | store (kind : Kind) {a : kind.Record} (ha : a ∈ (Principal.ofRealm realm : List kind.Record)) :
    RealmStep keys realm (keys.record kind (Principal.name a)) (store keys a (Principal.write a))
  | reset (kind : Kind) : RealmStep keys realm (keys.members kind realm.name)
      (resetMembers keys (keys.members kind realm.name) (newMembers kind realm))

theorem realmStep_of_mem {p : Plan Unit} (h : p ∈ realmSteps keys realm) :
    ∃ key, RealmStep keys realm key p := by
  rcases List.mem_append.mp h with h | h
  · rcases List.mem_append.mp h with h | h
    · obtain ⟨c, hc, rfl⟩ := List.mem_map.mp h
      exact ⟨_, .store .client hc⟩
    · obtain ⟨u, hu, rfl⟩ := List.mem_map.mp h
      exact ⟨_, .store .user hu⟩
  · rcases List.mem_cons.mp h with rfl | h
    · exact ⟨_, .reset .client⟩
    · obtain rfl := List.mem_singleton.mp h
      exact ⟨_, .reset .user⟩

variable {key key' : String} {p q : Plan Unit}

theorem RealmStep.lasting (hp : RealmStep keys realm key p)
    (h : Passed keys order payload realm s) : Lasting order key p := by
  cases hp with
  | store kind ha =>
      refine lasting_store (Kind.ofPayload_write ?_) (Kind.id_reread _)
      have hsound := Realm.sound_of_ofPayload (Json.eq_ok_of_mapError h.request)
      cases kind with
      | client => exact hsound.clients _ ha
      | user => exact hsound.users _ ha
  | reset kind =>
      refine lasting_changeMembers fun ms ms' _ hchange => ?_
      have hms' : newMembers kind realm = ms' := by
        split_ifs at hchange <;> cases hchange
        rfl
      subst hms'
      refine ⟨?_, by rw [if_pos rfl]⟩
      rw [newMembers, names, List.map_map]
      exact h.distinct kind

/-- A key is written by one step only. -/
theorem RealmStep.unique (hp : RealmStep keys realm key p) (hq : RealmStep keys realm key' q)
    (h : Passed keys order payload realm s) (hkey : key = key') : p = q := by
  cases hp with
  | store kind ha =>
      cases hq with
      | store kind' hb =>
          obtain ⟨rfl, hname⟩ := keys.record_inj hkey
          rw [List.inj_on_of_nodup_map (h.distinct kind) ha hb hname]
      | reset kind' => exact absurd hkey keys.record_ne_members
  | reset kind =>
      cases hq with
      | store kind' hb => exact absurd hkey.symm keys.record_ne_members
      | reset kind' =>
          obtain ⟨rfl, -⟩ := keys.members_inj hkey
          rfl

theorem RealmStep.key_ne_realm (hp : RealmStep keys realm key p)
    (hname : isRealmName realm.name = true) : key ≠ keys.realm realm.name := by
  cases hp with
  | store kind ha => exact keys.record_ne_realm
  | reset kind => exact Ne.symm (keys.realm_ne_members hname)

/-- What was found before a step towards a realm is found after it. -/
theorem RealmStep.passes (hq : RealmStep keys realm key q)
    (h : Passed keys order payload realm s) (hrun : q.run (answerIn order) s = (.ok (), s')) :
    Passed keys order payload realm s' := by
  have hlasting := hq.lasting h
  rcases hlasting.frame hrun with rfl | ⟨entry, rfl⟩
  · exact h
  refine { h with unknown := ?_, fit := fun kind a ha => ?_ }
  · have hunknown := h.unknown
    unfold realmExists at hunknown ⊢
    rw [if_pos h.name] at hunknown ⊢
    refine run_read_congr rfl ?_ hunknown
    simp only [answerIn, MemoryStore.answerOnline, MemoryStore.online_put,
      Std.ExtTreeMap.contains_eq_isSome_getElem?, MemoryStore.getElem?_put,
      if_neg (hq.key_ne_realm h.name)]
    split_ifs <;> rfl
  · by_cases hkey : keys.record kind (Principal.name a) = key
    · have hsettled := hlasting.settles hrun
      rw [← RealmStep.unique (.store kind ha) hq h hkey] at hsettled
      exact (run_store_iff.mp hsettled).1
    · refine checkStored_congr (MemoryStore.online_put ..) ?_ (h.fit kind a ha)
      rw [MemoryStore.getElem?_put, if_neg (Ne.symm hkey)]

theorem resumable_createRealm (payload : List UInt8) :
    Resumable (answerIn order) (checkRealm keys payload) (realmSteps keys) where
  looks := by
    refine Plan.looks_bind (Plan.looks_ofExcept _) fun realm =>
      Plan.looks_bind (Plan.looks_ofExcept _) fun _ => Plan.looks_bind (looks_realmExists _) ?_
    rintro (_ | _)
    · exact Plan.looks_bind (looks_checkNewMembers _ _ _) fun _ =>
        Plan.looks_bind (looks_checkNewMembers _ _ _) fun _ => Plan.looks_pure _
    · exact Plan.looks_fail _
  whole := by
    intro realm p hp
    obtain ⟨key, hp⟩ := realmStep_of_mem hp
    cases hp with
    | store kind ha => exact whole_store _ _
    | reset kind => exact whole_changeMembers _ _ _
  passes := by
    intro realm p s s' hp hcheck hrun
    obtain ⟨key, hp⟩ := realmStep_of_mem hp
    exact checkRealm_iff.mpr ⟨hp.passes (checkRealm_iff.mp hcheck).1 hrun, rfl⟩
  settles := by
    intro realm p s s' hp hcheck hrun
    obtain ⟨key, hp⟩ := realmStep_of_mem hp
    exact (hp.lasting (checkRealm_iff.mp hcheck).1).settles hrun
  keeps := by
    intro realm p q s s' hp hq hcheck hrun hidle
    obtain ⟨key, hp⟩ := realmStep_of_mem hp
    obtain ⟨key', hq⟩ := realmStep_of_mem hq
    have hpassed := (checkRealm_iff.mp hcheck).1
    exact (hp.lasting hpassed).keeps (hq.lasting hpassed) (hp.unique hq hpassed) hrun hidle

theorem retryable_createRealm (payload : List UInt8) :
    (createRealm keys payload).Retryable (answerIn order) := by
  rw [createRealm_eq]
  exact (resumable_createRealm payload).retryable (fun _ _ => answerIn_of_isRead) fun realm =>
    (Plan.allOrNothing_ask _).map fun _ => realm

end Realms

/-! ### Deleting records -/

section Deletion

variable {kind : Kind} {n : String} {lists : List String} {key : String}

/-- What has to be found before a record is deleted, and the lists that may name it. -/
def findLists (keys : KeySpace) (kind : Kind) (name : String) : Plan (List String) := do
  if ← Plan.ask (.has (keys.record kind name)) then Plan.ask (.scan (keys.membersPattern kind))
  else Plan.fail (.notFound kind.entity name)

/-- The lists that a name is taken out of before its record goes. -/
def deleteSteps (keys : KeySpace) (name : String) (lists : List String) : List (Plan Unit) :=
  lists.map fun key => changeMembers keys key none (takeOut name)

theorem removeEverywhere_eq (name : String) (lists : List String) :
    removeEverywhere keys name lists = inTurn (deleteSteps keys name lists) := by
  induction lists with
  | nil => rfl
  | cons key rest ih =>
      exact congrArg (fun p => changeMembers keys key none (takeOut name) >>= fun _ => p) ih

theorem delete_eq (keys : KeySpace) (kind : Kind) (name : String) :
    delete keys kind name = findLists keys kind name >>= fun lists =>
      inTurn (deleteSteps keys name lists) >>= fun _ =>
        Plan.ask (.delete [keys.record kind name]) >>= fun _ => pure () := by
  unfold delete findLists
  simp only [← removeEverywhere_eq, Plan.bind_eq, Plan.bind_assoc]
  refine congrArg (Plan.bind _) (funext fun found => ?_)
  cases found <;> rfl

theorem looks_findLists (kind : Kind) (n : String) : (findLists keys kind n).Looks := by
  refine Plan.looks_bind (Plan.looks_ask rfl) ?_
  rintro (_ | _)
  · exact Plan.looks_fail _
  · exact Plan.looks_ask rfl

/-- A name that was taken out of a list is not in it. -/
theorem lasting_takeOut (key n : String) :
    Lasting order key (changeMembers keys key none (takeOut n)) := by
  refine lasting_changeMembers fun ms ms' hnodup hchange => ?_
  obtain ⟨rfl, -⟩ := takeOut_eq_some hchange
  exact ⟨Membership.nodup_without hnodup n, by simp [takeOut]⟩

/-- To take a name out of a list adds no key to the store. -/
theorem keys_of_takeOut
    (h : (changeMembers keys key none (takeOut n)).run (answerIn order) s = (.ok (), s')) :
    s'.online = s.online ∧ s'.keys = s.keys := by
  rw [changeMembers_none, Plan.run_locked] at h
  obtain ⟨-, ms, changed, hms, hchanged, rfl⟩ := of_run_rewriteMembers h
  cases changed with
  | none => exact ⟨rfl, rfl⟩
  | some ms' =>
      have hn : n ∈ listed s key := by
        rw [listed_of_contents hms]
        exact (takeOut_eq_some hchanged).2
      exact ⟨rfl, MemoryStore.keys_put (isSome_of_listed hn) _⟩

/-- What a deletion finds is told from the keys alone. -/
theorem findLists_congr (honline : s'.online = s.online) (hkeys : s'.keys = s.keys)
    (h : (findLists keys kind n).run (answerIn order) s = (.ok lists, s)) :
    (findLists keys kind n).run (answerIn order) s' = (.ok lists, s') := by
  have hhas : ∀ key, s'.entries.contains key = s.entries.contains key := by
    intro key
    rw [Bool.eq_iff_iff, Std.ExtTreeMap.contains_iff_mem, Std.ExtTreeMap.contains_iff_mem,
      ← Std.ExtTreeMap.mem_keys, ← Std.ExtTreeMap.mem_keys]
    exact iff_of_eq (congrArg (key ∈ ·) hkeys)
  obtain ⟨found, hfound, hscan⟩ := (passes_iff (Plan.looks_ask rfl)).mp h
  refine (passes_iff (Plan.looks_ask rfl)).mpr ⟨found, run_read_congr rfl ?_ hfound, ?_⟩
  · simp only [answerIn, MemoryStore.answerOnline, honline, hhas]
    split_ifs <;> rfl
  cases found with
  | false => cases hscan
  | true =>
      refine run_read_congr (r := .scan (keys.membersPattern kind)) rfl ?_ hscan
      simp only [answerIn, MemoryStore.answerOnline, honline, hkeys]
      split_ifs <;> rfl

theorem resumable_delete (kind : Kind) (n : String) :
    Resumable (answerIn order) (findLists keys kind n) (deleteSteps keys n) where
  looks := looks_findLists kind n
  whole := by
    intro lists p hp
    obtain ⟨key, -, rfl⟩ := List.mem_map.mp hp
    exact whole_changeMembers _ _ _
  passes := by
    intro lists p s s' hp hcheck hrun
    obtain ⟨key, -, rfl⟩ := List.mem_map.mp hp
    obtain ⟨honline, hkeys⟩ := keys_of_takeOut hrun
    exact findLists_congr honline hkeys hcheck
  settles := by
    intro lists p s s' hp _ hrun
    obtain ⟨key, -, rfl⟩ := List.mem_map.mp hp
    exact (lasting_takeOut key n).settles hrun
  keeps := by
    intro lists p q s s' hp hq _ hrun hidle
    obtain ⟨key, -, rfl⟩ := List.mem_map.mp hp
    obtain ⟨key', -, rfl⟩ := List.mem_map.mp hq
    refine (lasting_takeOut key n).keeps (lasting_takeOut key' n) ?_ hrun hidle
    rintro rfl
    rfl

theorem retryable_delete (kind : Kind) (n : String) :
    (delete keys kind n).Retryable (answerIn order) := by
  rw [delete_eq]
  exact (resumable_delete kind n).retryable (fun _ _ => answerIn_of_isRead) fun _ =>
    (Plan.allOrNothing_ask _).map fun _ => ()

end Deletion

/-! ### All operations -/

theorem whole_create (kind : Kind) (payload : List UInt8) :
    (create keys kind.Record payload).AllOrNothing (answerIn order) :=
  whole_known fun a => whole_known fun text => (whole_store a text).map fun _ => a

theorem whole_update (kind : Kind) (n : String) (payload : List UInt8) :
    (update keys kind.Record n payload).AllOrNothing (answerIn order) := by
  refine whole_known fun a => whole_look (looks_get _ n) fun stored => ?_
  split_ifs
  · exact whole_fail _
  · exact whole_known fun _ => whole_known fun text => (Plan.allOrNothing_ask _).map fun _ => a

theorem whole_updateRealm (n : String) (payload : List UInt8) :
    (updateRealm keys n payload).AllOrNothing (answerIn order) := by
  refine whole_known fun realm => ?_
  split_ifs
  · exact whole_fail _
  · exact whole_look (looks_requireRealm n) fun _ =>
      (Plan.allOrNothing_ask _).map fun _ => realm.withoutMembers

theorem whole_deleteRealm (n : String) :
    (deleteRealm keys n).AllOrNothing (answerIn order) :=
  whole_look (looks_requireRealm n) fun _ =>
    ((Plan.allOrNothing_ask _).map fun _ => ()).locked.locked

theorem whole_add (kind : Kind) (r n : String) :
    (add keys kind.Record r n).AllOrNothing (answerIn order) :=
  whole_look (looks_requireRealm r) fun _ => whole_look (looks_get _ n) fun _ =>
    whole_changeMembers _ _ _

/-- An operation that is cut short can be tried again. -/
theorem retryable_plan (keys : KeySpace) (order : ScanOrder) (op : Operation) :
    (plan keys op).Retryable (answerIn order) := by
  cases op with
  | getRealm n => exact ((whole_of_looks (looks_getRealm n)).map _).retryable
  | getRealmWithMembers n => exact ((whole_of_looks (looks_getRealmWithMembers n)).map _).retryable
  | createRealm payload => exact (retryable_createRealm payload).map _
  | updateRealm n payload => exact ((whole_updateRealm n payload).map _).retryable
  | deleteRealm n => exact ((whole_deleteRealm n).map fun _ => Answer.done).retryable
  | get kind n => exact ((whole_of_looks (looks_get _ n)).map _).retryable
  | getFrom kind r n => exact ((whole_of_looks (looks_getFrom _ r n)).map _).retryable
  | getUserById r id => exact ((whole_of_looks (looks_getUserById r id)).map _).retryable
  | getAllFrom kind r => exact ((whole_of_looks (looks_getAllFrom _ r)).map _).retryable
  | create kind payload => exact ((whole_create kind payload).map _).retryable
  | update kind n payload => exact ((whole_update kind n payload).map _).retryable
  | delete kind n => exact (retryable_delete kind n).map fun _ => Answer.done
  | add kind r n => exact ((whole_add kind r n).map fun _ => Answer.done).retryable
  | remove kind r n => exact ((whole_changeMembers _ _ _).map fun _ => Answer.done).retryable

/-- **Attempts that were cut short make no difference.**  Whatever the store holds, in
whatever order it lists its keys, and at whatever calls some attempts of an operation failed,
the operation then answers as it would have without them, and leaves the same store. -/
theorem run_after_attempts (keys : KeySpace) (order : ScanOrder) (op : Operation)
    {s s' : MemoryStore} (h : (plan keys op).Attempts (answerIn order) s s') :
    (plan keys op).run (answerIn order) s' = (plan keys op).run (answerIn order) s :=
  (retryable_plan keys order op).run_eq h

/-- A realm with a client. -/
def newRealm : Operation :=
  .createRealm (Utf8.ofString ("\x7b\"name\":\"acme\",\"clients\":[\x7b\"name\":\"web\"," ++
    "\"id\":\"00000000-0000-0000-0000-000000000001\"\x7d]\x7d"))

/-- A store in which the list of an earlier realm was left, in two entries. -/
def leftoverStore : MemoryStore :=
  let entry := "[\x7b\"id\":\"00000000-0000-0000-0000-000000000002\",\"name\":\"old\"\x7d]"
  MemoryStore.empty.put (KeySpace.default.members .client "acme") (.list [entry, entry])

/-- After an attempt that has stored the client. -/
def halfway : MemoryStore :=
  Plan.brokenOff (answerIn .rising) (plan .default newRealm) leftoverStore 4 (.connection "lost")

/-- After another one, which came to the last write. -/
def almost : MemoryStore :=
  Plan.brokenOff (answerIn .rising) (plan .default newRealm) halfway 7 (.connection "lost")

theorem run_after_attempts_acme :
    (plan .default newRealm).Attempts (answerIn .rising) leftoverStore almost ∧
      (plan .default newRealm).run (answerIn .rising) almost
        = (plan .default newRealm).run (answerIn .rising) leftoverStore := by
  have hfirst : (plan .default newRealm).Attempts (answerIn .rising) leftoverStore halfway :=
    Plan.attempts_brokenOff (answerIn .rising) (plan .default newRealm) leftoverStore 4
      (.connection "lost") (by decide +kernel)
  have hsecond : (plan .default newRealm).Attempts (answerIn .rising) halfway almost :=
    Plan.attempts_brokenOff (answerIn .rising) (plan .default newRealm) halfway 7
      (.connection "lost") (by decide +kernel)
  have hattempts := hfirst.trans hsecond
  exact ⟨hattempts, run_after_attempts .default .rising newRealm hattempts⟩

end IdentityStore.Keyed
