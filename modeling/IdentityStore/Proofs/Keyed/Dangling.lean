/-
How a list may come to name a member without a record.

An addition reads the record before it takes the lock of the list, and a deletion takes the
name out of the lists that it finds before it removes the record.  If the addition has read
the record before it is removed, and writes the list after the deletion has looked for lists,
then the deletion may have passed the list by when the name comes in.  Where additions,
removals and deletions run side by side, that is the only way: `Overtaken`.

The argument looks back from a list that names a member without a record.  The record was
removed by a deletion, which had seen the list without the name by then; so the name came in
later, through an addition that had read the record while it was there.
-/
import IdentityStore.Proofs.Keyed.Batch
import IdentityStore.Proofs.Keyed.Ledger
import IdentityStore.Proofs.Keyed.Revival

namespace IdentityStore.Keyed

open IdentityStore.Membership (Edit names)

variable {keys : KeySpace} {order : ScanOrder} {s : MemoryStore} {op : Operation} {kind : Kind}
  {n r : String} {held : List String} {past : List (Exchange MemoryStore)}
  {ops : List Operation} {events : List Crew.Event} {x : Exchange MemoryStore}

/-- The store has a text under the key of a record. -/
def HasText (keys : KeySpace) (s : MemoryStore) (kind : Kind) (n : String) : Prop :=
  ∃ text, s.entries[keys.record kind n]? = some (.text text)

/-- An addition and a deletion of one record overtake each other: the addition read the record
before the deletion removed it, and wrote the name into the list after the deletion had looked
for lists.  All four calls have succeeded. -/
structure Overtakes (keys : KeySpace) (ops : List Operation) (log : Log MemoryStore) (kind : Kind)
    (r n : String) (i j : Nat) (read removal scan write : Exchange MemoryStore) : Prop where
  addition : ops[i]? = some (.add kind r n)
  deletion : ops[j]? = some (.delete kind n)
  found : ∃ text, read.Succeeds (.get (keys.record kind n)) (some text)
  removed : ∃ count, removal.Succeeds (.delete [keys.record kind n]) count
  there : HasText keys removal.before kind n
  scanned : ∃ lists, scan.Succeeds (.scan (keys.membersPattern kind)) lists
  written : ∃ entries, write.Succeeds (.setList (keys.members kind r) entries) ()
  named : n ∈ listed write.after (keys.members kind r)
  early : [(i, read), (j, removal)].Sublist log
  late : [(j, scan), (i, write)].Sublist log

/-- Some addition and deletion of a record have overtaken each other. -/
def Overtaken (keys : KeySpace) (ops : List Operation) (log : Log MemoryStore) (kind : Kind)
    (r n : String) : Prop :=
  ∃ i j read removal scan write, Overtakes keys ops log kind r n i j read removal scan write

/-! ### Single exchanges -/

/-- Where nobody creates or updates, a record stays as it is until a deletion of its name
removes it, which has seen all lists without the name by then. -/
theorem record_kept_or_deleted (h : Conduct keys op held past x.before x.request)
    (hx : x.Answered (MemoryStore.answerIn order)) (hcreates : op.creates = [])
    (hupdates : op.updates = []) (kind : Kind) (n : String) :
    x.after.entries[keys.record kind n]? = x.before.entries[keys.record kind n]? ∨
      (op = .delete kind n ∧ (∃ count, x.Succeeds (.delete [keys.record kind n]) count) ∧
        Cleaned keys past kind n ∧ x.after.entries[keys.record kind n]? = none) := by
  obtain ⟨request, reply, before, after⟩ := x
  rcases answered_cases hx with ⟨-, hsame⟩ | ⟨hok, hon, hrun⟩
  · exact .inl (congrArg (fun s : MemoryStore => s.entries[keys.record kind n]?) hsame)
  dsimp only at h hon hrun ⊢
  subst hrun
  by_cases hwrites : request.writes (keys.record kind n) = true
  swap
  · exact .inl (entry_of_not_writes h (Bool.eq_false_iff.mpr hwrites))
  cases h with
  | look h =>
      rw [Request.writes_of_isRead h] at hwrites
      cases hwrites
  | create _ h =>
      rw [hcreates] at h
      cases h
  | update h =>
      rw [hupdates] at h
      cases h
  | change => exact absurd (of_decide_eq_true hwrites).symm keys.record_ne_members
  | delete hop hclean =>
      obtain ⟨rfl, rfl⟩ := keys.record_inj (List.mem_singleton.mp (of_decide_eq_true hwrites))
      refine .inr ⟨hop, Exchange.exists_succeeds rfl hok, hclean, ?_⟩
      rw [MemoryStore.after_delete, if_pos hon, MemoryStore.getElem?_drop,
        if_pos (of_decide_eq_true hwrites)]
  | deleteRealm =>
      have hmem := of_decide_eq_true hwrites
      simp only [List.mem_cons, List.not_mem_nil, or_false] at hmem
      rcases hmem with heq | heq | heq
      · exact absurd heq keys.record_ne_realm
      · exact absurd heq keys.record_ne_members
      · exact absurd heq keys.record_ne_members

/-- Where nobody creates a realm, a name comes into a list through an addition that has read
a record of that name. -/
theorem listed_by_add (h : Conduct keys op held past x.before x.request)
    (hx : x.Answered (MemoryStore.answerIn order)) (hcreates : op.creates = [])
    (hbefore : n ∉ listed x.before (keys.members kind r))
    (hafter : n ∈ listed x.after (keys.members kind r)) :
    ∃ m, ∃ a : kind.Record, op = .add kind r m ∧ Read keys past kind m a ∧
      Principal.name a = n ∧
      ∃ entries, x.Succeeds (.setList (keys.members kind r) entries) () := by
  obtain ⟨request, reply, before, after⟩ := x
  rcases answered_cases hx with ⟨-, hsame⟩ | ⟨hok, hon, hrun⟩
  · exact absurd (hsame ▸ hafter) hbefore
  dsimp only at h hon hrun hbefore hafter ⊢
  subst hrun
  by_cases hwrites : request.writes (keys.members kind r) = true
  swap
  · rw [listed_congr (entry_of_not_writes h (Bool.eq_false_iff.mpr hwrites))] at hafter
    exact absurd hafter hbefore
  obtain ⟨change, hasks⟩ := asks_of_writes h hwrites
  have hcontents : contents (before.answerIn order request).2 (keys.members kind r)
      = change.apply (contents before (keys.members kind r)) := contents_of_asks hon hasks
  cases hasks with
  | @rewrite edit ms hedit hms =>
      rw [hms] at hcontents
      rw [listed_of_contents hcontents] at hafter
      rw [listed_of_contents hms] at hbefore
      have hbrings := (Edit.names_apply hafter).resolve_right hbefore
      cases hedit with
      | add hread =>
          obtain ⟨_, hwrite⟩ := Exchange.exists_succeeds rfl hok
          exact ⟨_, _, rfl, hread, (List.mem_singleton.mp hbrings).symm, _, hwrite⟩
      | remove => cases hbrings
      | delete => cases hbrings
      | create hrealm =>
          rw [Operation.creates, hrealm] at hcreates
          cases hcreates
  | clear =>
      rw [listed_of_contents hcontents] at hafter
      cases hafter

/-! ### Runs -/

/-- No operation creates or updates anything. -/
abbrev NothingNew (ops : List Operation) : Prop := ∀ op ∈ ops, op.creates = [] ∧ op.updates = []

/-- Whatever an exchange of a run has left under the key of a record lay there before. -/
theorem record_before_after (hops : NothingNew ops) {entry : Nat × Exchange MemoryStore}
    (hentry : entry ∈ logAfter keys order s ops events) {e : Entry}
    (he : entry.2.after.entries[keys.record kind n]? = some e) :
    entry.2.before.entries[keys.record kind n]? = some e := by
  obtain ⟨l₁, l₂, hlog⟩ := List.append_of_mem hentry
  obtain ⟨op, hop, hanswered, held, hconduct⟩ := conduct_of_log hlog
  obtain ⟨hcreates, hupdates⟩ := hops op (List.mem_of_getElem? hop)
  rcases record_kept_or_deleted hconduct hanswered hcreates hupdates kind n with
    hsame | ⟨-, -, -, hnone⟩
  · rw [← hsame, he]
  · rw [hnone] at he
    cases he

/-- A record that is not there does not come back. -/
theorem stays_gone (hops : NothingNew ops) {front rest : Log MemoryStore} {m s' : MemoryStore}
    (hlog : logAfter keys order s ops events = front ++ rest) (hpasses : Log.Passes m rest s')
    (hgone : ¬ HasText keys m kind n) :
    ¬ HasText keys s' kind n ∧ ∀ entry ∈ rest, ¬ HasText keys entry.2.before kind n := by
  refine Log.Passes.forall (P := fun s => ¬ HasText keys s kind n) hpasses ?_ hgone
  rintro entry hentry hbefore ⟨text, htext⟩
  have hmem : entry ∈ logAfter keys order s ops events := by
    rw [hlog]
    exact List.mem_append_right _ hentry
  exact hbefore ⟨text, record_before_after hops hmem htext⟩

/-- Whatever a run finds under the key of a record lay there from the beginning. -/
theorem record_from_start (hops : NothingNew ops) {entry : Nat × Exchange MemoryStore}
    (hentry : entry ∈ logAfter keys order s ops events) {e : Entry}
    (he : entry.2.before.entries[keys.record kind n]? = some e) :
    s.entries[keys.record kind n]? = some e := by
  have hall := (Log.Passes.forall
    (P := fun s' : MemoryStore => ∀ e, s'.entries[keys.record kind n]? = some e →
      s.entries[keys.record kind n]? = some e)
    (@abiding_after keys order s ops events).passes
    (fun entry hentry hbefore e he => hbefore e (record_before_after hops hentry he))
    fun e he => he).2
  exact hall entry hentry e he

/-- A name that has come into a list came in through an addition of it that had read the
record while it was there. -/
theorem addition_of_listed (hops : NothingNew ops)
    (hnamed : ∀ m text, ∀ a : kind.Record, s.entries[keys.record kind m]? = some (.text text) →
      decode kind.Record (keys.record kind m) text = .ok a → Principal.name a = m)
    {front rest : Log MemoryStore} {middle s' : MemoryStore}
    (hlog : logAfter keys order s ops events = front ++ rest)
    (hpasses : Log.Passes middle rest s')
    (hbefore : n ∉ listed middle (keys.members kind r))
    (hafter : n ∈ listed s' (keys.members kind r)) :
    ∃ l₁ i write l₂ read, rest = l₁ ++ (i, write) :: l₂ ∧ ops[i]? = some (.add kind r n) ∧
      (∃ entries, write.Succeeds (.setList (keys.members kind r) entries) ()) ∧
      n ∈ listed write.after (keys.members kind r) ∧ (i, read) ∈ front ++ l₁ ∧
      (∃ text, read.Succeeds (.get (keys.record kind n)) (some text)) ∧
      HasText keys read.before kind n := by
  obtain ⟨l₁, i, write, l₂, rfl, hwas, his, -⟩ :=
    Log.Passes.first (P := fun s => n ∈ listed s (keys.members kind r)) hafter hpasses hbefore
  have hlog' : logAfter keys order s ops events = (front ++ l₁) ++ (i, write) :: l₂ := by
    rw [hlog, List.append_assoc]
  obtain ⟨op, hop, hanswered, held, hconduct⟩ := conduct_of_log hlog'
  obtain ⟨m, a, rfl, ⟨read, hread, text, hsucceeds, htext, ha⟩, rfl, hwrite⟩ :=
    listed_by_add hconduct hanswered (hops op (List.mem_of_getElem? hop)).1 hwas his
  have hread := Log.mem_own.mp hread
  have hreadlog : (i, read) ∈ logAfter keys order s ops events := by
    rw [hlog']
    exact List.mem_append_left _ hread
  -- the record lay under its own name from the beginning
  have hname := hnamed m text a (record_from_start hops hreadlog htext) ha
  subst hname
  exact ⟨l₁, i, write, l₂, read, rfl, hop, hwrite, his, hread, ⟨text, hsucceeds⟩, text, htext⟩

/-- A deletion that removes a record has seen the list without the name after it has looked
for lists. -/
theorem seen_without {l₁ l₂ : Log MemoryStore} {j : Nat} {removal : Exchange MemoryStore}
    {s' : MemoryStore} (hlog : logAfter keys order s ops events = l₁ ++ (j, removal) :: l₂)
    (hpasses : Log.Passes s (l₁ ++ (j, removal) :: l₂) s')
    (hclean : Cleaned keys (Log.own j l₁) kind n) (r : String) :
    ∃ front rest scan middle, l₁ ++ (j, removal) :: l₂ = front ++ rest ∧
      (j, scan) ∈ front ∧ (∃ lists, scan.Succeeds (.scan (keys.membersPattern kind)) lists) ∧
      Log.Passes middle rest s' ∧ n ∉ listed middle (keys.members kind r) := by
  obtain ⟨earlier, scan, later, lists, hpast, hscan, hseen⟩ := hclean
  obtain ⟨a, b, rfl, -, rfl⟩ := Log.own_eq_append_cons hpast
  by_cases hfound : (scan.before.entries[keys.members kind r]?).isSome = true
  · -- the list was found, and was seen without the name later
    obtain ⟨y, hy, hwithout⟩ := hseen r hfound
    obtain ⟨b₁, b₂, rfl⟩ := List.append_of_mem (Log.mem_own.mp hy)
    have hsplit : (a ++ (j, scan) :: (b₁ ++ (j, y) :: b₂)) ++ (j, removal) :: l₂
        = (a ++ (j, scan) :: (b₁ ++ [(j, y)])) ++ (b₂ ++ (j, removal) :: l₂) := by simp
    refine ⟨_, _, scan, y.after, hsplit, by simp, ⟨lists, hscan⟩, ?_, hwithout⟩
    have hcut : (a ++ (j, scan) :: (b₁ ++ (j, y) :: b₂)) ++ (j, removal) :: l₂
        = (a ++ (j, scan) :: b₁) ++ (j, y) :: (b₂ ++ (j, removal) :: l₂) := by simp
    rw [hcut] at hpasses
    obtain ⟨_, -, -, hrest⟩ := hpasses.split
    exact hrest
  · -- there was no list when the deletion looked for lists
    have hsplit : (a ++ (j, scan) :: b) ++ (j, removal) :: l₂
        = (a ++ [(j, scan)]) ++ (b ++ (j, removal) :: l₂) := by simp
    have hcut : (a ++ (j, scan) :: b) ++ (j, removal) :: l₂
        = a ++ (j, scan) :: (b ++ (j, removal) :: l₂) := by simp
    refine ⟨_, _, scan, scan.after, hsplit, by simp, ⟨lists, hscan⟩, ?_, ?_⟩
    · rw [hcut] at hpasses
      obtain ⟨_, -, -, hrest⟩ := hpasses.split
      exact hrest
    · have hmem : (j, scan) ∈ logAfter keys order s ops events := by
        rw [hlog]
        simp
      have hsame : scan.after = scan.before := by
        rcases answered_cases (answered_of_log hmem) with ⟨-, hsame⟩ | ⟨-, -, hrun⟩
        · exact hsame
        · rw [hrun, hscan.request]
          exact MemoryStore.answerIn_of_isRead rfl
      have hnone : scan.before.entries[keys.members kind r]? = none :=
        Option.not_isSome_iff_eq_none.mp hfound
      rw [hsame, listed_of_contents (contents_of_none hnone)]
      exact List.not_mem_nil

/-- A member without a record was added and deleted by operations that have overtaken each
other. -/
theorem overtaken_of_dangling (hops : NothingNew ops)
    (hnamed : ∀ m text, ∀ a : kind.Record, s.entries[keys.record kind m]? = some (.text text) →
      decode kind.Record (keys.record kind m) text = .ok a → Principal.name a = m)
    (hlisted : ∀ n ∈ listed s (keys.members kind r), HasText keys s kind n)
    (hn : n ∈ listed (crewAfter keys order s ops events).store (keys.members kind r))
    (hdangling : ¬ HasText keys (crewAfter keys order s ops events).store kind n) :
    Overtaken keys ops (logAfter keys order s ops events) kind r n := by
  have hpasses := (@abiding_after keys order s ops events).passes
  by_cases hstart : HasText keys s kind n
  swap
  · -- the record never was, so nobody can have read it
    have hlog : logAfter keys order s ops events = [] ++ logAfter keys order s ops events := rfl
    obtain ⟨l₁, i, write, l₂, read, hrest, -, -, -, hread, -, htext⟩ :=
      addition_of_listed hops hnamed hlog hpasses (fun h => hstart (hlisted n h)) hn
    refine absurd htext ((stays_gone hops hlog hpasses hstart).2 (i, read) ?_)
    rw [hrest]
    exact List.mem_append_left _ hread
  -- the exchange that removed the record
  obtain ⟨l₁, j, removal, l₂, hlog, hthere, hgone, -⟩ :=
    Log.Passes.first (P := fun s => ¬ HasText keys s kind n) hdangling hpasses
      (not_not.mpr hstart)
  obtain ⟨op, hop, hanswered, held, hconduct⟩ := conduct_of_log hlog
  obtain ⟨hcreates, hupdates⟩ := hops op (List.mem_of_getElem? hop)
  have hthere := not_not.mp hthere
  rcases record_kept_or_deleted hconduct hanswered hcreates hupdates kind n with
    hsame | ⟨rfl, hremoval, hclean, -⟩
  · refine absurd hthere fun ⟨text, htext⟩ => hgone ⟨text, ?_⟩
    rw [hsame, htext]
  rw [hlog] at hpasses
  obtain ⟨front, rest, scan, middle, hsplit, hscan, hlists, hlater, hwithout⟩ :=
    seen_without hlog hpasses hclean r
  obtain ⟨k₁, i, write, k₂, read, rfl, hadd, hwrite, hlisted, hread, hget, htext⟩ :=
    addition_of_listed hops hnamed (hlog.trans hsplit) hlater hwithout hn
  have hreadlog : (i, read) ∈ l₁ ++ (j, removal) :: l₂ := by
    rw [hsplit, ← List.append_assoc]
    exact List.mem_append_left _ hread
  -- the record was read while it was there, and so before it was removed
  have hearly : (i, read) ∈ l₁ := by
    rcases List.mem_append.mp hreadlog with hfirst | hlast
    · exact hfirst
    rcases List.mem_cons.mp hlast with heq | hlast
    · cases heq
      obtain ⟨_, hget⟩ := hget
      obtain ⟨_, hremoval⟩ := hremoval
      cases hget.request.symm.trans hremoval.request
    · obtain ⟨_, -, -, hafter⟩ := hpasses.split
      have hcut : logAfter keys order s ops events = (l₁ ++ [(j, removal)]) ++ l₂ := by
        rw [hlog]
        simp
      exact absurd htext ((stays_gone hops hcut hafter hgone).2 (i, read) hlast)
  refine ⟨i, j, read, removal, scan, write, hadd, hop, hget, hremoval, hthere, hlists, hwrite,
    hlisted, ?_, ?_⟩
  · rw [hlog]
    exact (List.singleton_sublist.mpr hearly).append
      (List.singleton_sublist.mpr List.mem_cons_self)
  · rw [hlog, hsplit]
    exact (List.singleton_sublist.mpr hscan).append
      (List.singleton_sublist.mpr (List.mem_append_right _ List.mem_cons_self))

/-! ### Reading all members of a realm -/

/-- A text under the key of a record is read as one when many are read at once. -/
theorem hasText_iff : HasText keys s kind n ↔
    (s.textOrNone (keys.record kind n)).isSome = true := by
  rw [Option.isSome_iff_exists]
  exact exists_congr fun _ => textOrNone_eq_some_iff.symm

/-- Where all texts are found, no name is missing, and what is wrong is a text. -/
theorem sortFound_cases {found : List (Member × Option String)}
    (h : ∀ f ∈ found, f.2.isSome = true) :
    (∃ records, sortFound keys kind.Record found = .ok (records, [])) ∨
      ∃ key reason, sortFound keys kind.Record found = .error (.corrupt kind.entity key reason) := by
  induction found with
  | nil => exact .inl ⟨[], rfl⟩
  | cons f rest ih =>
      obtain ⟨member, text⟩ := f
      obtain ⟨text, rfl⟩ := Option.isSome_iff_exists.mp (h _ List.mem_cons_self)
      rw [sortFound, decode, Kind.entity_record]
      rcases Principal.ofPayload (Utf8.ofString text) with fault | a
      · exact .inr ⟨_, _, rfl⟩
      rcases ih fun f hf => h f (List.mem_cons_of_mem _ hf) with
        ⟨records, hrest⟩ | ⟨key, reason, hrest⟩
      · rw [hrest]
        exact .inl ⟨a :: records, rfl⟩
      · rw [hrest]
        exact .inr ⟨key, reason, rfl⟩

/-- No list is read to name members that have no records. -/
theorem run_membersOf_ne_inconsistent {s' : MemoryStore} {realm entity : String}
    {missing : List String} :
    (membersOf keys kind r).run (MemoryStore.answerIn order) s
      ≠ (.error (.inconsistent realm entity missing), s') := by
  intro h
  rcases Plan.run_bind_cases h with ⟨e, hrequire, hx⟩ | ⟨_, s₁, -, hload⟩
  · cases hx
    unfold requireRealm realmExists at hrequire
    rcases Plan.run_bind_cases hrequire with ⟨e, hexists, hx⟩ | ⟨found, s₁, -, hfound⟩
    · cases hx
      split_ifs at hexists
      · obtain ⟨cause, hcause⟩ := Plan.run_ask_error hexists
        exact ofStore_ne_inconsistent cause _ _ _ hcause.symm
      · cases hexists
    · split_ifs at hfound <;> cases hfound
  · rcases Plan.run_bind_cases hload with ⟨e, hlist, hx⟩ | ⟨entries, s₂, -, hms⟩
    · cases hx
      obtain ⟨cause, hcause⟩ := Plan.run_ask_error hlist
      exact ofStore_ne_inconsistent cause _ _ _ hcause.symm
    · rw [Plan.run_ofExcept] at hms
      rcases hentries : Membership.ofEntries entries with fault | ms
      · rw [hentries] at hms
        cases hms
      · rw [hentries] at hms
        cases hms

/-- Where every listed member has a record, a realm is not found to list any without. -/
theorem run_getAllFrom_ne_inconsistent
    (h : ∀ n ∈ listed s (keys.members kind r), HasText keys s kind n) {realm entity : String}
    {missing : List String} :
    ((getAllFrom keys kind.Record r).run (MemoryStore.answerIn order) s).1
      ≠ .error (.inconsistent realm entity missing) := by
  intro herror
  rcases hmembers : (membersOf keys kind r).run (MemoryStore.answerIn order) s with ⟨e | ms, s'⟩
  · unfold getAllFrom at herror
    rw [Kind.kind_record, Plan.run_bind_error hmembers] at herror
    cases herror
    exact run_membersOf_ne_inconsistent hmembers
  obtain ⟨rfl, -, hms⟩ := run_membersOf_eq_ok hmembers
  have hall : ∀ f ∈ found keys s' kind ms, f.2.isSome = true := by
    rw [found, List.zip_map_right]
    rintro f hf
    obtain ⟨⟨m, m'⟩, hm, rfl⟩ := List.mem_map.mp hf
    have hm' := (List.of_mem_zip hm).2
    refine hasText_iff.mp (h m'.name ?_)
    rw [listed_of_contents hms]
    exact List.mem_map_of_mem hm'
  rw [run_getAllFrom_of_membersOf hmembers] at herror
  rcases sortFound_cases hall with ⟨records, hsorted⟩ | ⟨key, reason, hsorted⟩
  · rw [recordsFound, hsorted] at herror
    cases herror
  · rw [recordsFound, hsorted] at herror
    cases herror

/-! ### Additions, removals and deletions side by side -/

/-- **No list names a member without a record, unless an addition and a deletion of it have
overtaken each other.**  No operation creates or updates anything, records lie under their
own names to begin with, and the members of the list have theirs.  Then that remains so, in
whatever order calls come, and wherever calls fail or operations are given up; and if no
addition and deletion have overtaken each other, reading all members of the realm finds no
record missing. -/
theorem members_have_records_unless_overtaken (keys : KeySpace) (order : ScanOrder)
    (s : MemoryStore) (ops : List Operation) (events : List Crew.Event) (kind : Kind) (r : String)
    (hops : NothingNew ops)
    (hnamed : ∀ n text, ∀ a : kind.Record, s.entries[keys.record kind n]? = some (.text text) →
      decode kind.Record (keys.record kind n) text = .ok a → Principal.name a = n)
    (hlisted : ∀ n ∈ listed s (keys.members kind r), HasText keys s kind n) :
    let log := logAfter keys order s ops events
    let after := (crewAfter keys order s ops events).store
    (∀ n ∈ listed after (keys.members kind r),
      HasText keys after kind n ∨ Overtaken keys ops log kind r n) ∧
    ((∀ n, ¬ Overtaken keys ops log kind r n) → ∀ realm entity missing,
      ((getAllFrom keys kind.Record r).run (MemoryStore.answerIn order) after).1
        ≠ .error (.inconsistent realm entity missing)) := by
  intro log after
  have hmain : ∀ n ∈ listed after (keys.members kind r),
      HasText keys after kind n ∨ Overtaken keys ops log kind r n := fun n hn =>
    or_iff_not_imp_left.mpr (overtaken_of_dangling hops hnamed hlisted hn)
  exact ⟨hmain, fun hnone realm entity missing => run_getAllFrom_ne_inconsistent fun n hn =>
    (hmain n hn).resolve_right (hnone n)⟩

/-- A store that holds a client and a realm without members. -/
def acmeStore : MemoryStore :=
  webStore.put (KeySpace.default.realm "acme") (.text "\x7b\"name\":\"acme\"\x7d")

/-- A client is added to a realm and deleted side by side. -/
def addAndDelete : List Operation := [.add .client "acme" "web", .delete .client "web"]

/-- The addition has read the client, then the deletion goes from its beginning to its end,
and then the addition does. -/
def overtaking : List Crew.Event := [0, 0, 1, 1, 1, 0, 0, 0, 0, 0].map .step

theorem listed_acmeStore (kind : Kind) (r : String) :
    listed acmeStore (KeySpace.default.members kind r) = [] := by
  refine listed_of_contents (contents_of_none ?_)
  rw [acmeStore, MemoryStore.getElem?_put, if_neg (KeySpace.realm_ne_members _ (by decide)),
    webStore, MemoryStore.getElem?_put, if_neg (KeySpace.record_ne_members _)]
  rfl

theorem named_acmeStore (n text : String) (a : Client)
    (h : acmeStore.entries[KeySpace.default.record .client n]? = some (.text text))
    (ha : decode Client (KeySpace.default.record .client n) text = .ok a) : a.name = n := by
  rw [acmeStore, MemoryStore.getElem?_put, if_neg (KeySpace.record_ne_realm _).symm, webStore,
    MemoryStore.getElem?_put] at h
  split_ifs at h with hkey
  · obtain ⟨-, rfl⟩ := KeySpace.record_inj _ hkey
    cases h
    have hname : (decode Client (KeySpace.default.record .client "web") web).toOption.map
        Client.name = some "web" := by decide +kernel
    rw [ha] at hname
    exact Option.some.inj hname
  · cases h

theorem members_have_records_unless_overtaken_acme :
    let log := logAfter .default .rising acmeStore addAndDelete overtaking
    let after := (crewAfter .default .rising acmeStore addAndDelete overtaking).store
    (∀ n ∈ listed after (KeySpace.default.members .client "acme"),
      HasText .default after .client n ∨ Overtaken .default addAndDelete log .client "acme" n) ∧
    ((∀ n, ¬ Overtaken .default addAndDelete log .client "acme" n) → ∀ realm entity missing,
      ((getAllFrom .default Client "acme").run (MemoryStore.answerIn .rising) after).1
        ≠ .error (.inconsistent realm entity missing)) := by
  have hops : NothingNew addAndDelete := by decide +kernel
  refine members_have_records_unless_overtaken .default .rising acmeStore addAndDelete overtaking
    .client "acme" hops named_acmeStore fun n hn => ?_
  rw [listed_acmeStore] at hn
  cases hn

/-- Holds for additions, removals and deletions. -/
def isMove : Operation → Bool
  | .add _ _ _ | .remove _ _ _ | .delete _ _ => true
  | _ => false

/-- Additions, removals and deletions that all have been answered, and of which no call has
failed, may leave a member of a realm without a record, although every listed member had one
to begin with. -/
theorem member_loses_record :
    ¬ ∀ (s : MemoryStore) (ops : List Operation) (turns : List Nat),
      (∀ op ∈ ops, isMove op = true) →
      (∀ kind r, ∀ n ∈ listed s (KeySpace.default.members kind r), HasText .default s kind n) →
      (∀ w ∈ (crewAfter .default .rising s ops (turns.map .step)).workers,
        w.result?.isSome = true) →
      ∀ kind r, Subject.Stored .default (crewAfter .default .rising s ops (turns.map .step)).store
          (.realm r) →
        ∀ n ∈ listed (crewAfter .default .rising s ops (turns.map .step)).store
          (KeySpace.default.members kind r),
          HasText .default (crewAfter .default .rising s ops (turns.map .step)).store kind n := by
  intro h
  have hlisted : ∀ kind r, ∀ n ∈ listed acmeStore (KeySpace.default.members kind r),
      HasText .default acmeStore kind n := by
    intro kind r n hn
    rw [listed_acmeStore] at hn
    cases hn
  obtain ⟨text, htext⟩ := h acmeStore addAndDelete [0, 0, 1, 1, 1, 0, 0, 0, 0, 0]
    (by decide +kernel) hlisted (by decide +kernel) .client "acme" (by decide +kernel) "web"
    (by decide +kernel)
  have hnone : (crewAfter .default .rising acmeStore addAndDelete
      ([0, 0, 1, 1, 1, 0, 0, 0, 0, 0].map .step)).store.entries[
        KeySpace.default.record .client "web"]? = none := by decide +kernel
  rw [hnone] at htext
  cases htext

end IdentityStore.Keyed
