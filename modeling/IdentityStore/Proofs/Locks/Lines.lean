/-
A table of lines does what a table of shared mutexes does.

A line is all that can be seen of a mutex: its queue is the line of the mutex, and it is guarded
if somebody has the guard.  Whoever asks, asks again or lets go is told the same by both tables,
and a line leaves the one when an entry leaves the other, although the one looks at the line for
it and the other at the references.
-/
import IdentityStore.Proofs.Locks.Sharing
import IdentityStore.Proofs.Plan.Progress

namespace IdentityStore

/-- A table of lines, with the keys of those who stand in them. -/
structure LineTable where
  table : LockTable Nat := .empty
  keys : List (Option String) := []

namespace LineTable

/-- The key at which the one of a number stands. -/
def key? (t : LineTable) (i : Nat) : Option String := t.keys[i]?.join

/-- What somebody is told, and the table after it. -/
def step (t : LineTable) : LockStep → Option Standing × LineTable
  | .lock key =>
    let (standing, table) := t.table.lock key t.keys.length
    (some standing, ⟨table, t.keys ++ [some key]⟩)
  | .poll i =>
    match t.key? i with
    | none => (none, t)
    | some key =>
      let (standing, table) := t.table.poll key i
      (standing, { t with table })
  | .drop i =>
    match t.key? i with
    | none => (none, t)
    | some key => (none, ⟨t.table.leave key i, t.keys.set i none⟩)

/-- The table after some steps from the beginning. -/
def after (steps : List LockStep) : LineTable := steps.foldl (fun t e => (t.step e).2) {}

end LineTable

namespace MutexTable

variable {M : Mutex} {line : M.State → List Nat} {s s' : MutexTable M} {t : LockTable Nat}
  {key : String} {i : Nat}

/-! ### Lines for mutexes -/

variable (line) in
/-- A table has a line for every mutex. -/
structure Lined (s : MutexTable M) (t : LockTable Nat) : Prop where
  entry : ∀ k, k ∈ t.lines ↔ k ∈ s.table
  queue : ∀ k, (t.line k).queue = s.queue line k
  guarded : ∀ k, (t.line k).guarded = true ↔ ∃ i, s.Guards k i

/-- Both tables change at one key. -/
theorem Lined.put {place : Nat → Option (String × Bool)} {queue : String → List Nat}
    {entry : String → Prop} (h : s.Lined line t) (hshows : s'.Shows line place queue entry)
    (l : Line Nat) (hentry : ∀ k, entry k ↔ k = key ∨ k ∈ s.table)
    (hqueue : ∀ k, queue k = if k = key then l.queue else s.queue line k)
    (hself : l.guarded = true ↔ ∃ i, place i = some (key, true))
    (hothers : ∀ k, k ≠ key → ∀ i, place i = some (k, true) ↔ s.Guards k i) :
    s'.Lined line (t.put key l) where
  entry k := by
    rw [hshows.entry, hentry, ← h.entry]
    show k ∈ t.lines.insert key l ↔ _
    rw [Std.ExtTreeMap.mem_insert, Std.LawfulEqCmp.compare_eq_iff_eq, eq_comm]
  queue k := by
    rw [LockTable.line_put, hshows.queue, hqueue]
    by_cases hk : k = key
    · rw [if_pos hk, if_pos hk.symm]
    · rw [if_neg hk, if_neg (Ne.symm hk), h.queue]
  guarded k := by
    rw [LockTable.line_put]
    simp only [Guards, hshows.place]
    by_cases hk : k = key
    · rw [if_pos hk.symm, hk]
      exact hself
    · rw [if_neg (Ne.symm hk), h.guarded]
      exact exists_congr fun i => (hothers k hk i).symm

/-- Both tables lose the entry of one key. -/
theorem Lined.erase {place : Nat → Option (String × Bool)} {queue : String → List Nat}
    {entry : String → Prop} (h : s.Lined line t) (hshows : s'.Shows line place queue entry)
    (hentry : ∀ k, entry k ↔ k ≠ key ∧ k ∈ s.table)
    (hqueue : ∀ k, queue k = if k = key then [] else s.queue line k)
    (hself : ¬ ∃ i, place i = some (key, true))
    (hothers : ∀ k, k ≠ key → ∀ i, place i = some (k, true) ↔ s.Guards k i) :
    s'.Lined line ⟨t.lines.erase key⟩ where
  entry k := by
    rw [hshows.entry, hentry, ← h.entry]
    show k ∈ t.lines.erase key ↔ _
    rw [Std.ExtTreeMap.mem_erase, ne_eq, Std.LawfulEqCmp.compare_eq_iff_eq, eq_comm]
  queue k := by
    rw [LockTable.line_erase, hshows.queue, hqueue]
    by_cases hk : k = key
    · rw [if_pos hk, if_pos hk.symm]
    · rw [if_neg hk, if_neg (Ne.symm hk), h.queue]
  guarded k := by
    rw [LockTable.line_erase]
    simp only [Guards, hshows.place]
    by_cases hk : k = key
    · rw [if_pos hk.symm, hk]
      exact ⟨fun heq => absurd heq Bool.false_ne_true, fun hg => absurd hg hself⟩
    · rw [if_neg (Ne.symm hk), h.guarded]
      exact exists_congr fun i => (hothers k hk i).symm

/-- Nothing changes that a line tells. -/
theorem Lined.congr {place : Nat → Option (String × Bool)} {queue : String → List Nat}
    {entry : String → Prop} (h : s.Lined line t) (hshows : s'.Shows line place queue entry)
    (hentry : ∀ k, entry k ↔ k ∈ s.table) (hqueue : ∀ k, queue k = s.queue line k)
    (hplace : ∀ k i, place i = some (k, true) ↔ s.Guards k i) : s'.Lined line t where
  entry k := by rw [hshows.entry, hentry, h.entry]
  queue k := by rw [hshows.queue, hqueue, h.queue]
  guarded k := by
    rw [h.guarded]
    refine exists_congr fun i => ?_
    rw [← hplace, Guards, hshows.place]

/-- Whoever asks is told the same. -/
theorem Lined.lock (hfair : M.Fair line) (hs : s.Shared line) (h : s.Lined line t)
    (key : String) :
    (t.lock key s.contenders.length).1 = (s.lock key).1 ∧
      (s.lock key).2.Lined line (t.lock key s.contenders.length).2 := by
  obtain ⟨hanswer, hshows⟩ := hs.lock hfair key
  have hnone : s.place s.contenders.length = none := by
    rw [place, contender?_length]
    rfl
  have hothers : ∀ k, k ≠ key → ∀ i, (if i = s.contenders.length then
      some (key, (s.queue line key).isEmpty) else s.place i) = some (k, true) ↔ s.Guards k i := by
    intro k hk i
    by_cases hi : i = s.contenders.length
    · rw [if_pos hi, Guards, hi, hnone]
      simp [Ne.symm hk]
    · rw [if_neg hi, Guards]
  have hqueue := h.queue key
  rw [hanswer]
  rcases hempty : s.queue line key with _ | ⟨owner, rest⟩
  · have hlock : t.lock key s.contenders.length =
        (.held, t.put key ⟨[s.contenders.length], true⟩) := by
      unfold LockTable.lock
      dsimp only
      rw [hqueue, hempty]
    rw [hlock]
    rw [hempty] at hshows hothers
    refine ⟨rfl, h.put hshows _ (fun _ => .rfl) (fun _ => rfl) ?_ hothers⟩
    exact ⟨fun _ => ⟨s.contenders.length, if_pos rfl⟩, fun _ => rfl⟩
  · have hlock : t.lock key s.contenders.length = (.waiting,
        t.put key ⟨owner :: rest ++ [s.contenders.length], (t.line key).guarded⟩) := by
      unfold LockTable.lock
      dsimp only
      rw [hqueue, hempty]
    rw [hlock]
    rw [hempty] at hshows hothers
    refine ⟨rfl, h.put hshows _ (fun _ => .rfl) (fun _ => rfl) ?_ hothers⟩
    rw [h.guarded]
    refine exists_congr fun i => ?_
    by_cases hi : i = s.contenders.length
    · rw [if_pos hi, Guards, hi, hnone]
      simp
    · rw [if_neg hi, Guards]

/-- Whoever asks again is told the same. -/
theorem Lined.poll (hfair : M.Fair line) (hs : s.Shared line) (h : s.Lined line t)
    {guarded : Bool} (hi : s.place i = some (key, guarded)) :
    (t.poll key i).1 = (s.poll i).1 ∧ (s.poll i).2.Lined line (t.poll key i).2 := by
  obtain ⟨hanswer, hshows⟩ := hs.poll hfair hi
  have hmem : i ∈ s.queue line key := (hs.members key i).mpr ⟨guarded, hi⟩
  obtain ⟨owner, rest, hqueue⟩ := List.exists_cons_of_ne_nil (List.ne_nil_of_mem hmem)
  have hfirst : (s.queue line key).head? = some i ↔ owner = i := by
    rw [hqueue, List.head?_cons, Option.some_inj]
  rw [hanswer]
  by_cases howner : owner = i
  · have hpoll : t.poll key i = (some .held, t.put key ⟨owner :: rest, true⟩) := by
      unfold LockTable.poll
      dsimp only
      rw [h.queue, hqueue]
      dsimp only
      rw [if_pos howner]
    rw [hpoll]
    rw [decide_eq_true (hfirst.mpr howner)] at hshows ⊢
    refine ⟨rfl, h.put hshows _ (fun k => ?_) (fun k => ?_) ?_ fun k hk j => ?_⟩
    · refine ⟨.inr, fun hk => hk.elim (fun heq => ?_) id⟩
      rw [heq]
      exact hs.mem_table_of_stands ⟨guarded, hi⟩
    · split_ifs with hk
      · rw [hk, hqueue]
      · rfl
    · exact ⟨fun _ => ⟨i, if_pos rfl⟩, fun _ => rfl⟩
    · by_cases hj : j = i
      · rw [if_pos hj, Guards, hj, hi]
        simp [Ne.symm hk]
      · rw [if_neg hj, Guards]
  · have hpoll : t.poll key i = (some .waiting, t) := by
      unfold LockTable.poll
      dsimp only
      rw [h.queue, hqueue]
      dsimp only
      rw [if_neg howner, if_pos ((List.mem_cons.mp (hqueue ▸ hmem)).resolve_left (Ne.symm howner))]
    rw [hpoll]
    rw [decide_eq_false (mt hfirst.mp howner)] at hshows ⊢
    refine ⟨rfl, h.congr hshows (fun _ => .rfl) (fun _ => rfl) fun k j => ?_⟩
    by_cases hj : j = i
    · rw [if_pos hj, hj]
      refine ⟨fun heq => (by cases heq), fun hguards => ?_⟩
      have hkey : k = key := by
        rw [Guards, hi] at hguards
        exact (Prod.mk.inj (Option.some.inj hguards)).1.symm
      exact absurd (hfirst.mp (hkey ▸ hs.first k i hguards)) howner
    · rw [if_neg hj, Guards]

/-- Whoever lets go takes out an entry in both tables or in neither. -/
theorem Lined.leave (hfair : M.Fair line) (hs : s.Shared line) (h : s.Lined line t)
    {guarded : Bool} (hi : s.place i = some (key, guarded)) :
    (s.drop i).Lined line (t.leave key i) := by
  have hshows := hs.drop hfair hi
  have hmem : i ∈ s.queue line key := (hs.members key i).mpr ⟨guarded, hi⟩
  obtain ⟨owner, rest, hqueue⟩ := List.exists_cons_of_ne_nil (List.ne_nil_of_mem hmem)
  have hplace : ∀ k j, (if j = i then none else s.place j) = some (k, true) ↔
      j ≠ i ∧ s.Guards k j := by
    intro k j
    by_cases hj : j = i
    · simp [hj]
    · simp [hj, Guards]
  have hothers : ∀ k, k ≠ key → ∀ j, (if j = i then none else s.place j) = some (k, true) ↔
      s.Guards k j := by
    intro k hk j
    rw [hplace]
    refine ⟨And.right, fun hj => ⟨fun heq => ?_, hj⟩⟩
    rw [heq, Guards, hi] at hj
    exact hk (Prod.mk.inj (Option.some.inj hj)).1.symm
  have hkept : ∀ k, (guarded = true → ∃ j, j ≠ i ∧ s.Stands key j) →
      (k ∈ s.table ∧ (guarded = true → k = key → ∃ j, j ≠ i ∧ s.Stands key j) ↔
        k = key ∨ k ∈ s.table) := by
    intro k hleft
    refine ⟨fun hk => .inr hk.1, fun hk => ⟨hk.elim (fun heq => ?_) id, fun hg _ => hleft hg⟩⟩
    rw [heq]
    exact hs.mem_table_of_stands ⟨guarded, hi⟩
  unfold LockTable.leave
  dsimp only
  rw [h.queue, hqueue]
  dsimp only
  rw [hqueue] at hshows
  by_cases howner : owner = i
  · -- the owner lets go, and the next owner, if there is one, has not been told
    subst howner
    rw [List.erase_cons_head] at hshows
    have hguarded : (t.line key).guarded = true ↔ guarded = true := by
      rw [h.guarded]
      constructor
      · rintro ⟨j, hj⟩
        rw [← hs.eq_of_guards hqueue hj, Guards, hi] at hj
        exact (Prod.mk.inj (Option.some.inj hj)).2
      · rintro rfl
        exact ⟨owner, hi⟩
    have hfree : ¬ ∃ j, (if j = owner then none else s.place j) = some (key, true) := by
      rintro ⟨j, hj⟩
      rw [hplace] at hj
      exact hj.1 (hs.eq_of_guards hqueue hj.2).symm
    rw [if_pos rfl]
    split_ifs with hlast
    · rw [hguarded] at hlast
      obtain ⟨rfl, rfl⟩ := hlast
      refine h.erase hshows (fun k => ?_) (fun _ => rfl) hfree hothers
      rw [hs.exists_other_iff hqueue]
      simp [and_comm]
    · refine h.put hshows _ (fun k => hkept k fun hg => ?_) (fun _ => rfl) ?_ hothers
      · exact (hs.exists_other_iff hqueue).mpr fun hnil => hlast ⟨hguarded.mpr hg, hnil⟩
      · exact ⟨fun heq => absurd heq Bool.false_ne_true, fun hg => absurd hg hfree⟩
  · -- somebody behind the owner gives up waiting
    rw [if_neg howner]
    rw [List.erase_cons_tail (by simpa using howner)] at hshows
    refine h.put hshows _ (fun k => hkept k fun hg => ?_) (fun _ => rfl) ?_ hothers
    · subst hg
      exact absurd (hs.eq_of_guards hqueue hi) howner
    · rw [h.guarded]
      refine exists_congr fun j => ?_
      rw [hplace]
      refine ⟨fun hj => ⟨fun heq => ?_, hj⟩, And.right⟩
      exact howner (hs.eq_of_guards hqueue (heq ▸ hj))

theorem Lined.size_eq (h : s.Lined line t) : t.size = s.size := by
  have hperm : t.lines.keys.Perm s.table.keys := by
    rw [List.perm_ext_iff_of_nodup Std.ExtTreeMap.nodup_keys Std.ExtTreeMap.nodup_keys]
    intro k
    rw [Std.ExtTreeMap.mem_keys, Std.ExtTreeMap.mem_keys, h.entry]
  rw [LockTable.size, size, ← Std.ExtTreeMap.length_keys, hperm.length_eq,
    Std.ExtTreeMap.length_keys]

theorem Lined.isEmpty_eq (h : s.Lined line t) : t.isEmpty = s.isEmpty := by
  rw [LockTable.isEmpty, isEmpty, Std.ExtTreeMap.isEmpty_eq_size_beq_zero,
    Std.ExtTreeMap.isEmpty_eq_size_beq_zero]
  exact congrArg (· == 0) h.size_eq

/-! ### Runs of both -/

/-- The keys of those who have asked, in the order of asking. -/
def keys (s : MutexTable M) : List (Option String) := s.contenders.map (Option.map Contender.key)

theorem keys_join (s : MutexTable M) (i : Nat) :
    (s.keys[i]?).join = (s.place i).map Prod.fst := by
  rw [keys, place, contender?, List.getElem?_map]
  rcases s.contenders[i]? with _ | _ | c <;> rfl

theorem keys_lock (s : MutexTable M) (key : String) :
    (s.lock key).2.keys = s.keys ++ [some key] := by
  have henter : (s.enter key).2.contenders = s.contenders := by
    unfold enter
    split <;> rfl
  show (((s.enter key).2.contenders ++ [some _]).map (Option.map Contender.key)) = _
  rw [henter, List.map_append]
  rfl

theorem keys_poll (s : MutexTable M) (i : Nat) : (s.poll i).2.keys = s.keys := by
  unfold poll
  rcases hi : s.contender? i with _ | c
  · rfl
  dsimp only
  split_ifs
  · rfl
  · show (s.contenders.set i _).map (Option.map Contender.key) = s.keys
    have hkey : s.keys[i]? = some (some c.key) := by
      rw [keys, List.getElem?_map, Option.join_eq_some_iff.mp hi]
      rfl
    obtain ⟨hlt, hget⟩ := List.getElem?_eq_some_iff.mp hkey
    rw [List.map_set]
    show s.keys.set i (some c.key) = s.keys
    rw [← hget, List.set_getElem_self]

theorem keys_prune (s : MutexTable M) (key : String) : (s.prune key).keys = s.keys := by
  unfold prune
  split
  · split_ifs <;> rfl
  · rfl

theorem keys_drop {guarded : Bool} (hi : s.place i = some (key, guarded)) :
    (s.drop i).keys = s.keys.set i none := by
  obtain ⟨c, hc, -, -⟩ := place_eq_some.mp hi
  unfold drop
  rw [hc]
  dsimp only
  split_ifs
  · rw [keys_prune, keys, List.map_set]
    rfl
  · rw [keys, List.map_set]
    rfl

variable (line) in
/-- The two tables have been through the same. -/
structure Matches (s : MutexTable M) (t : LineTable) : Prop where
  shared : s.Shared line
  lined : s.Lined line t.table
  keys : t.keys = s.keys

theorem matches_empty : Matches line ({} : MutexTable M) {} where
  shared := shared_empty
  lined := {
    entry := fun k => by simp [LockTable.empty]
    queue := fun k => by simp [LockTable.empty, LockTable.line, queue]
    guarded := fun k => by simp [LockTable.empty, LockTable.line, Guards, place, contender?] }
  keys := rfl

/-- Whatever is done next, both tables tell the same. -/
theorem Matches.step (hfair : M.Fair line) {t : LineTable} (h : s.Matches line t) (e : LockStep) :
    (t.step e).1 = (s.step e).1 ∧ (s.step e).2.Matches line (t.step e).2 := by
  obtain ⟨hs, hlined, hkeys⟩ := h
  have hkey : ∀ i, t.key? i = (s.place i).map Prod.fst := by
    intro i
    rw [LineTable.key?, hkeys, keys_join]
  cases e with
  | lock key =>
    have hlength : t.keys.length = s.contenders.length := by rw [hkeys, MutexTable.keys, List.length_map]
    obtain ⟨htold, hlined'⟩ := hlined.lock hfair hs key
    rw [← hlength] at htold hlined'
    refine ⟨congrArg some htold, hs.step hfair (.lock key), hlined', ?_⟩
    show t.keys ++ [some key] = (s.lock key).2.keys
    rw [keys_lock, hkeys]
  | poll i =>
    unfold LineTable.step
    dsimp only
    rw [hkey]
    rcases hi : s.place i with _ | ⟨key, guarded⟩
    · rw [MutexTable.step, poll_of_place_eq_none hi]
      exact ⟨rfl, hs, hlined, hkeys⟩
    · obtain ⟨htold, hlined'⟩ := hlined.poll hfair hs hi
      exact ⟨htold, hs.step hfair (.poll i), hlined', hkeys.trans (keys_poll s i).symm⟩
  | drop i =>
    unfold LineTable.step
    dsimp only
    rw [hkey]
    rcases hi : s.place i with _ | ⟨key, guarded⟩
    · rw [MutexTable.step, drop_of_place_eq_none hi]
      exact ⟨rfl, hs, hlined, hkeys⟩
    · refine ⟨rfl, hs.step hfair (.drop i), hlined.leave hfair hs hi, ?_⟩
      show t.keys.set i none = (s.drop i).keys
      rw [keys_drop hi, hkeys]

theorem matches_after (hfair : M.Fair line) (steps : List LockStep) :
    (after M steps).Matches line (.after steps) := by
  induction steps using List.reverseRecOn with
  | nil => exact matches_empty
  | append_singleton steps e ih =>
    have hline : LineTable.after (steps ++ [e]) = ((LineTable.after steps).step e).2 := by
      simp only [LineTable.after, List.foldl_append, List.foldl_cons, List.foldl_nil]
    rw [after_concat, hline]
    exact (ih.step hfair e).2

/-- **A table of lines cannot be told** from a table of shared mutexes that are fair: whatever has
been done about locks, whoever takes the next step is told the same, and the tables have entries
for as many keys. -/
theorem told_by_lines (hfair : M.Fair line) (steps : List LockStep) (e : LockStep) :
    ((LineTable.after steps).step e).1 = ((after M steps).step e).1 ∧
      (LineTable.after steps).table.size = (after M steps).size ∧
      (LineTable.after steps).table.isEmpty = (after M steps).isEmpty := by
  have h := matches_after hfair steps
  exact ⟨(h.step hfair e).1, h.lined.size_eq, h.lined.isEmpty_eq⟩

end MutexTable

end IdentityStore
