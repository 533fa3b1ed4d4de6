/-
All who contend for a key share one mutex.

An entry leaves the table only when nobody has a reference to its mutex but the table itself.
So as long as somebody holds the lock of a key or waits for it, the key has an entry, and the
entry has the mutex that all of them deal with: `Shared`.  The order in which they stand is then
the line of that mutex, and what each step does to the lines can be said key by key, without a
word about references: `Shared.lock`, `Shared.poll` and `Shared.drop`.

Of the mutex it is only asked that it is fair.
-/
import IdentityStore.Locks.Mutexes
import Mathlib.Data.List.Nodup
import Mathlib.Tactic.Common

namespace IdentityStore

/-! ### Fair mutexes -/

/-- The mutex has a line of those who have asked and have not let go, in the order of asking.
Who stands first has the guard or is told so when asking again, and nobody else is. -/
structure Mutex.Fair (M : Mutex) (line : M.State → List Nat) : Prop where
  unlocked : line M.unlocked = []
  /-- Whoever asks comes last, and has the guard at once if nobody stands before. -/
  ask : ∀ m i, i ∉ line m →
    (M.ask m i).1 = (line m).isEmpty ∧ line (M.ask m i).2 = line m ++ [i]
  poll : ∀ m i, i ∈ line m →
    (M.poll m i).1 = decide ((line m).head? = some i) ∧ line (M.poll m i).2 = line m
  /-- A guard that is given back goes to the next in line. -/
  release : ∀ m, line m ≠ [] → line (M.release m) = (line m).tail
  /-- Whoever gives up waiting leaves the line, and passes the lock on if it was due. -/
  cancel : ∀ m i, i ∈ line m → line (M.cancel m i) = (line m).erase i

theorem Mutex.fair_queue : Mutex.queue.Fair id where
  unlocked := rfl
  ask _ _ _ := ⟨rfl, rfl⟩
  poll _ _ _ := ⟨rfl, rfl⟩
  release _ _ := rfl
  cancel _ _ _ := rfl

namespace MutexTable

variable {M : Mutex} {line : M.State → List Nat} {s : MutexTable M} {key k : String}
  {i j m : Nat}

/-! ### Who stands where -/

/-- The key at which the one of a number stands, and whether with the guard. -/
def place (s : MutexTable M) (i : Nat) : Option (String × Bool) :=
  (s.contender? i).map fun c => (c.key, c.guarded)

/-- The one of a number holds the lock of a key or waits for it. -/
def Stands (s : MutexTable M) (key : String) (i : Nat) : Prop :=
  ∃ guarded, s.place i = some (key, guarded)

/-- The one of a number has the guard of a key. -/
def Guards (s : MutexTable M) (key : String) (i : Nat) : Prop := s.place i = some (key, true)

variable (line) in
/-- The line of a key, which is that of its mutex. -/
def queue (s : MutexTable M) (key : String) : List Nat :=
  match s.table[key]? with
  | some m => line (s.state m)
  | none => []

variable (line) in
/-- Contenders for a key share the mutex that the table has under it. -/
structure Shared (s : MutexTable M) : Prop where
  /-- A contender has a reference to the mutex under its key. -/
  reference : ∀ (i : Nat) (c : Contender), s.contender? i = some c → s.table[c.key]? = some c.mutex
  distinct : ∀ (k k' : String) (m : Nat), s.table[k]? = some m → s.table[k']? = some m → k = k'
  made : ∀ (k : String) (m : Nat), s.table[k]? = some m → m < s.mutexes.length
  members : ∀ k i, i ∈ s.queue line k ↔ s.Stands k i
  /-- Lines are in the order of asking. -/
  rising : ∀ k, (s.queue line k).Pairwise (· < ·)
  /-- Who has the guard stands first. -/
  first : ∀ k i, s.Guards k i → (s.queue line k).head? = some i

variable (line) in
/-- What can be seen of a table in which contenders share mutexes: who stands where, the lines,
and which keys have an entry. -/
structure Shows (s : MutexTable M) (place : Nat → Option (String × Bool))
    (queue : String → List Nat) (entry : String → Prop) : Prop where
  shared : s.Shared line
  place : ∀ i, s.place i = place i
  queue : ∀ k, s.queue line k = queue k
  entry : ∀ k, k ∈ s.table ↔ entry k

theorem place_eq_some {guarded : Bool} :
    s.place i = some (key, guarded) ↔
      ∃ c, s.contender? i = some c ∧ c.key = key ∧ c.guarded = guarded := by
  simp [place, Option.map_eq_some_iff]

theorem stands_iff : s.Stands key i ↔ ∃ c, s.contender? i = some c ∧ c.key = key := by
  constructor
  · rintro ⟨guarded, h⟩
    obtain ⟨c, hc, hkey, -⟩ := place_eq_some.mp h
    exact ⟨c, hc, hkey⟩
  · rintro ⟨c, hc, hkey⟩
    exact ⟨c.guarded, place_eq_some.mpr ⟨c, hc, hkey, rfl⟩⟩

theorem Guards.stands (h : s.Guards key i) : s.Stands key i := ⟨true, h⟩

theorem lt_of_contender {c : Contender} (h : s.contender? i = some c) : i < s.contenders.length := by
  unfold contender? at h
  by_contra hge
  rw [List.getElem?_eq_none (Nat.le_of_not_lt hge)] at h
  cases h

theorem contender?_length : s.contender? s.contenders.length = none := by
  simp [contender?]

variable (line) in
theorem queue_of_entry (h : s.table[key]? = some m) : s.queue line key = line (s.state m) := by
  rw [queue, h]

theorem join_getElem?_append {α : Type} (cs : List (Option α)) (o : Option α) (j : Nat) :
    ((cs ++ [o])[j]?).join = if j = cs.length then o else (cs[j]?).join := by
  rcases Nat.lt_trichotomy j cs.length with hj | rfl | hj
  · rw [List.getElem?_append_left hj, if_neg (Nat.ne_of_lt hj)]
  · rw [List.getElem?_concat_length, if_pos rfl]
    rfl
  · rw [List.getElem?_eq_none (by simp; omega), List.getElem?_eq_none (Nat.le_of_lt hj),
      if_neg (Nat.ne_of_gt hj)]

theorem join_getElem?_set {α : Type} {cs : List (Option α)} (hi : i < cs.length) (o : Option α)
    (j : Nat) :
    ((cs.set i o)[j]?).join = if j = i then o else (cs[j]?).join := by
  rw [List.getElem?_set]
  by_cases hj : j = i
  · rw [if_pos hj.symm, if_pos hi, if_pos hj]
    rfl
  · rw [if_neg fun heq => hj heq.symm, if_neg hj]

theorem getElem?_insert (t : Std.ExtTreeMap String Nat) (key : String) (m : Nat) (k : String) :
    (t.insert key m)[k]? = if k = key then some m else t[k]? := by
  rw [Std.ExtTreeMap.getElem?_insert]
  simp only [Std.LawfulEqCmp.compare_eq_iff_eq, eq_comm (a := key)]

theorem getElem?_erase (t : Std.ExtTreeMap String Nat) (key : String) (k : String) :
    (t.erase key)[k]? = if k = key then none else t[k]? := by
  rw [Std.ExtTreeMap.getElem?_erase]
  simp only [Std.LawfulEqCmp.compare_eq_iff_eq, eq_comm (a := key)]

theorem Shared.stands_of_queue (h : s.Shared line) (hi : (s.queue line key).head? = some i) :
    s.Stands key i :=
  (h.members key i).mp (List.mem_of_mem_head? hi)

/-- Nobody stands at a key that has no entry. -/
theorem Shared.mem_table_of_stands (h : s.Shared line) (hi : s.Stands key i) : key ∈ s.table := by
  obtain ⟨c, hc, rfl⟩ := stands_iff.mp hi
  rw [Std.ExtTreeMap.mem_iff_isSome_getElem?, h.reference i c hc]
  rfl

/-- Only the first in line can have the guard. -/
theorem Shared.eq_of_guards {owner : Nat} {rest : List Nat} (h : s.Shared line)
    (hqueue : s.queue line key = owner :: rest) (hi : s.Guards key i) : owner = i := by
  have hfirst := h.first key i hi
  rw [hqueue] at hfirst
  exact Option.some.inj hfirst

/-- Others than the first stand at a key if the line goes on behind it. -/
theorem Shared.exists_other_iff {owner : Nat} {rest : List Nat} (h : s.Shared line)
    (hqueue : s.queue line key = owner :: rest) :
    (∃ i, i ≠ owner ∧ s.Stands key i) ↔ rest ≠ [] := by
  have hrising := h.rising key
  simp only [← h.members, hqueue, List.mem_cons]
  rw [hqueue, List.pairwise_cons] at hrising
  constructor
  · rintro ⟨i, hne, hi⟩
    exact List.ne_nil_of_mem (hi.resolve_left hne)
  · intro hne
    obtain ⟨next, hnext⟩ := List.exists_mem_of_ne_nil rest hne
    exact ⟨next, (Nat.ne_of_lt (hrising.1 next hnext)).symm, .inr hnext⟩

theorem Shared.queue_eq_nil_iff (h : s.Shared line) :
    s.queue line key = [] ↔ ∀ i, ¬ s.Stands key i := by
  rw [List.eq_nil_iff_forall_not_mem]
  exact forall_congr' fun i => not_congr (h.members key i)

theorem shared_empty : Shared line ({} : MutexTable M) where
  reference i c h := by simp [contender?] at h
  distinct k k' m h := by simp at h
  made k m h := by simp at h
  members k i := by simp [queue, Stands, place, contender?]
  rising k := by simp [queue]
  first k i h := by simp [Guards, place, contender?] at h

/-! ### Asking a mutex -/

/-- What becomes of a mutex changes the line of its key only. -/
theorem Shared.queue_set (h : s.Shared line) {s' : MutexTable M} {st : M.State}
    (hkey : s.table[key]? = some m) (htable : s'.table = s.table)
    (hmutexes : s'.mutexes = s.mutexes.set m st) (k : String) :
    s'.queue line k = if k = key then line st else s.queue line k := by
  have hstate : ∀ n, s'.state n = if n = m then st else s.state n := by
    intro n
    unfold state
    rw [hmutexes, List.getElem?_set]
    by_cases hn : n = m
    · rw [if_pos hn.symm, if_pos (h.made key m hkey), if_pos hn]
      rfl
    · rw [if_neg fun heq => hn heq.symm, if_neg hn]
  unfold queue
  rw [htable]
  by_cases hk : k = key
  · rw [if_pos hk, hk, hkey]
    dsimp only
    rw [hstate, if_pos rfl]
  · rw [if_neg hk]
    rcases hn : s.table[k]? with _ | n
    · rfl
    · dsimp only
      rw [hstate, if_neg]
      rintro rfl
      exact hk (h.distinct k key n hn hkey)

/-- One contender for a key deals with its mutex, and all others stay where they are. -/
theorem Shared.exchange (h : s.Shared line) (s' : MutexTable M) (i : Nat) (o : Option Contender)
    (st : M.State) (hkey : s.table[key]? = some m) (htable : s'.table = s.table)
    (hmutexes : s'.mutexes = s.mutexes.set m st)
    (hcontenders : ∀ j, s'.contender? j = if j = i then o else s.contender? j)
    (hold : ∀ c, s.contender? i = some c → c.key = key)
    (hnew : ∀ c, o = some c → c.key = key ∧ c.mutex = m ∧
      (c.guarded = true → (line st).head? = some i))
    (hmem : ∀ j, j ∈ line st ↔ if j = i then o.isSome = true else j ∈ s.queue line key)
    (hrising : (line st).Pairwise (· < ·))
    (hothers : ∀ j, j ≠ i → s.Guards key j → (line st).head? = some j) :
    s'.Shows line (fun j => if j = i then o.map fun c => (c.key, c.guarded) else s.place j)
      (fun k => if k = key then line st else s.queue line k) (· ∈ s.table) := by
  have hqueue := h.queue_set hkey htable hmutexes
  have hplace : ∀ j, j ≠ i → s'.place j = s.place j := by
    intro j hj
    rw [place, place, hcontenders, if_neg hj]
  have hself : ∀ k, s'.Stands k i ↔ k = key ∧ o.isSome = true := by
    intro k
    rw [stands_iff, hcontenders, if_pos rfl]
    constructor
    · rintro ⟨c, rfl, rfl⟩
      exact ⟨(hnew c rfl).1, rfl⟩
    · rintro ⟨rfl, hsome⟩
      obtain ⟨c, rfl⟩ := Option.isSome_iff_exists.mp hsome
      exact ⟨c, rfl, (hnew c rfl).1⟩
  refine ⟨⟨fun j c hc => ?_, ?_, fun k n hn => ?_, fun k j => ?_, fun k => ?_, fun k j hj => ?_⟩,
    fun j => ?_, hqueue, fun k => by rw [htable]⟩
  · rw [htable]
    rw [hcontenders] at hc
    split_ifs at hc
    · obtain ⟨rfl, rfl, -⟩ := hnew c hc
      exact hkey
    · exact h.reference j c hc
  · rw [htable]
    exact h.distinct
  · rw [htable] at hn
    rw [hmutexes, List.length_set]
    exact h.made k n hn
  · rw [hqueue]
    by_cases hj : j = i
    · subst hj
      rw [hself]
      by_cases hk : k = key
      · rw [if_pos hk, hmem, if_pos rfl]
        exact ⟨fun ho => ⟨hk, ho⟩, And.right⟩
      · rw [if_neg hk, h.members]
        refine ⟨fun hstands => ?_, fun hboth => absurd hboth.1 hk⟩
        obtain ⟨c, hc, rfl⟩ := stands_iff.mp hstands
        exact absurd (hold c hc) hk
    · rw [Stands, hplace j hj, ← Stands, ← h.members]
      by_cases hk : k = key
      · rw [if_pos hk, hmem, if_neg hj, hk]
      · rw [if_neg hk]
  · rw [hqueue]
    split_ifs
    · exact hrising
    · exact h.rising k
  · rw [hqueue]
    by_cases hji : j = i
    · subst hji
      obtain ⟨c, hc, rfl, hguarded⟩ := place_eq_some.mp hj
      rw [hcontenders, if_pos rfl] at hc
      rw [if_pos (hnew c hc).1]
      exact (hnew c hc).2.2 hguarded
    · rw [Guards, hplace j hji] at hj
      split_ifs with hk
      · exact hothers j hji (hk ▸ hj)
      · exact h.first k j hj
  · rw [place, hcontenders]
    split_ifs <;> rfl

/-! ### Entries -/

/-- A key that has no entry gets one with a mutex of its own. -/
theorem Shared.enter (hfair : M.Fair line) (h : s.Shared line) (key : String) :
    (s.enter key).2.Shared line ∧ (s.enter key).2.table[key]? = some (s.enter key).1 ∧
      (s.enter key).2.contenders = s.contenders ∧
      (∀ k, (s.enter key).2.queue line k = s.queue line k) ∧
      ∀ k, k ∈ (s.enter key).2.table ↔ k = key ∨ k ∈ s.table := by
  unfold MutexTable.enter
  rcases hkey : s.table[key]? with _ | m
  swap
  · refine ⟨h, hkey, rfl, fun _ => rfl, fun k => ?_⟩
    refine ⟨.inr, fun hk => hk.elim (fun heq => ?_) id⟩
    rw [heq, Std.ExtTreeMap.mem_iff_isSome_getElem?, hkey]
    rfl
  dsimp only
  have htable := getElem?_insert s.table key s.mutexes.length
  have hold : ∀ (k : String) (n : Nat), s.table[k]? = some n →
      k ≠ key ∧ n < s.mutexes.length := by
    intro k n hn
    refine ⟨fun heq => ?_, h.made k n hn⟩
    rw [heq, hkey] at hn
    cases hn
  have hqueue : ∀ k, queue line { s with
      mutexes := s.mutexes ++ [M.unlocked]
      table := s.table.insert key s.mutexes.length } k = s.queue line k := by
    intro k
    unfold queue state
    dsimp only
    rw [htable]
    by_cases hk : k = key
    · rw [if_pos hk, hk, hkey]
      dsimp only
      rw [List.getElem?_concat_length]
      exact hfair.unlocked
    · rw [if_neg hk]
      rcases hn : s.table[k]? with _ | n
      · rfl
      · dsimp only
        rw [List.getElem?_append_left (hold k n hn).2]
  refine ⟨⟨fun i c hc => ?_, fun k k' n hn hn' => ?_, fun k n hn => ?_, fun k i => ?_, fun k => ?_,
    fun k i hi => ?_⟩, ?_, rfl, hqueue, fun k => ?_⟩
  · have hc := h.reference i c hc
    exact (htable c.key).trans (if_neg (hold _ _ hc).1 ▸ hc)
  · rw [htable] at hn hn'
    split_ifs at hn hn' with hk hk'
    · rw [hk, hk']
    · cases hn
      exact absurd (hold k' _ hn').2 (Nat.lt_irrefl _)
    · cases hn'
      exact absurd (hold k _ hn).2 (Nat.lt_irrefl _)
    · exact h.distinct k k' n hn hn'
  · rw [htable] at hn
    show n < (s.mutexes ++ [M.unlocked]).length
    rw [List.length_append]
    split_ifs at hn
    · cases hn
      exact Nat.lt_succ_self _
    · exact Nat.lt_succ_of_lt (hold k n hn).2
  · rw [hqueue]
    exact h.members k i
  · rw [hqueue]
    exact h.rising k
  · rw [hqueue]
    exact h.first k i hi
  · exact (htable key).trans (if_pos rfl)
  · show k ∈ s.table.insert key s.mutexes.length ↔ _
    rw [Std.ExtTreeMap.mem_insert, Std.LawfulEqCmp.compare_eq_iff_eq, eq_comm]

/-- The table has one reference to each of its mutexes. -/
theorem Shared.countP_table (h : s.Shared line) (hkey : s.table[key]? = some m) :
    (s.table.toList.countP fun e => e.2 = m) = 1 := by
  have hnodup : s.table.toList.Nodup := by
    refine Std.ExtTreeMap.distinct_keys_toList.imp fun hne heq => hne ?_
    rw [heq, Std.LawfulEqCmp.compare_eq_iff_eq]
  have hmem : (key, m) ∈ s.table.toList := Std.ExtTreeMap.mem_toList_iff_getElem?_eq_some.mpr hkey
  rw [← List.count_eq_one_of_mem hnodup hmem, List.count]
  refine List.countP_congr fun e he => ?_
  obtain ⟨k, n⟩ := e
  have hk : s.table[k]? = some n := Std.ExtTreeMap.mem_toList_iff_getElem?_eq_some.mp he
  simp only [decide_eq_true_eq, beq_iff_eq, Prod.mk.injEq]
  constructor
  · rintro rfl
    exact ⟨h.distinct k key n hk hkey, rfl⟩
  · exact And.right

/-- **The table has the only reference** to the mutex of a key when nobody stands at the key. -/
theorem Shared.references_eq_one_iff (h : s.Shared line) (hkey : s.table[key]? = some m) :
    s.references m = 1 ↔ ∀ i, ¬ s.Stands key i := by
  rw [references, h.countP_table hkey, Nat.add_eq_left, List.countP_eq_zero]
  constructor
  · intro hnone i hi
    obtain ⟨c, hc, rfl⟩ := stands_iff.mp hi
    have hmutex : c.mutex = m := by
      rw [h.reference i c hc] at hkey
      exact Option.some.inj hkey
    have hmem : some c ∈ s.contenders :=
      List.mem_of_getElem? (Option.join_eq_some_iff.mp hc)
    exact hnone _ hmem (by simp [hmutex])
  · rintro hnone o ho hmutex
    obtain ⟨c, rfl, hm⟩ := (Option.any_eq_true _ _).mp hmutex
    obtain ⟨i, hi⟩ := List.mem_iff_getElem?.mp ho
    have hc : s.contender? i = some c := by rw [contender?, hi]; rfl
    have hreference := h.reference i c hc
    rw [of_decide_eq_true hm] at hreference
    exact hnone i (stands_iff.mpr ⟨c, hc, h.distinct c.key key m hreference hkey⟩)

/-- An entry that is taken out was one that nobody needed. -/
theorem Shared.prune (h : s.Shared line) (hkey : (s.table[key]?).isSome = true) :
    (s.prune key).Shared line ∧ (s.prune key).contenders = s.contenders ∧
      (∀ k, (s.prune key).queue line k = s.queue line k) ∧
      ∀ k, k ∈ (s.prune key).table ↔ k ∈ s.table ∧ (k = key → ∃ i, s.Stands key i) := by
  obtain ⟨m, hm⟩ := Option.isSome_iff_exists.mp hkey
  unfold MutexTable.prune
  rw [hm]
  dsimp only
  split_ifs with hone
  swap
  · have hsome : ∃ i, s.Stands key i := by
      by_contra hnone
      exact hone ((h.references_eq_one_iff hm).mpr fun i hi => hnone ⟨i, hi⟩)
    exact ⟨h, rfl, fun _ => rfl, fun k => ⟨fun hk => ⟨hk, fun _ => hsome⟩, And.left⟩⟩
  have hnone := (h.references_eq_one_iff hm).mp hone
  have htable := getElem?_erase s.table key
  have hqueue : ∀ k, queue line { s with table := s.table.erase key } k = s.queue line k := by
    intro k
    by_cases hk : k = key
    · rw [hk, h.queue_eq_nil_iff.mpr hnone]
      unfold queue
      dsimp only
      rw [htable, if_pos rfl]
    · unfold queue
      dsimp only
      rw [htable, if_neg hk]
      rfl
  have hold : ∀ (k : String) (n : Nat), (s.table.erase key)[k]? = some n →
      s.table[k]? = some n := by
    intro k n hn
    rw [htable] at hn
    split_ifs at hn
    exact hn
  refine ⟨⟨fun i c hc => ?_, fun k k' n hn hn' => h.distinct k k' n (hold k n hn) (hold k' n hn'),
    fun k n hn => h.made k n (hold k n hn), fun k i => ?_, fun k => ?_, fun k i hi => ?_⟩, rfl,
    hqueue, fun k => ?_⟩
  · have hne : c.key ≠ key := fun heq => hnone i (stands_iff.mpr ⟨c, hc, heq⟩)
    exact (htable c.key).trans (if_neg hne ▸ h.reference i c hc)
  · rw [hqueue]
    exact h.members k i
  · rw [hqueue]
    exact h.rising k
  · rw [hqueue]
    exact h.first k i hi
  · show k ∈ s.table.erase key ↔ _
    rw [Std.ExtTreeMap.mem_erase, ne_eq, Std.LawfulEqCmp.compare_eq_iff_eq]
    constructor
    · rintro ⟨hne, hk⟩
      exact ⟨hk, fun heq => absurd heq.symm hne⟩
    · rintro ⟨hk, hsome⟩
      refine ⟨fun heq => ?_, hk⟩
      obtain ⟨i, hi⟩ := hsome heq.symm
      exact hnone i hi

theorem Shows.congr {place place' : Nat → Option (String × Bool)}
    {queue queue' : String → List Nat} {entry entry' : String → Prop}
    (h : s.Shows line place queue entry) (hplace : ∀ i, place i = place' i)
    (hqueue : ∀ k, queue k = queue' k) (hentry : ∀ k, entry k ↔ entry' k) :
    s.Shows line place' queue' entry' where
  shared := h.shared
  place i := (h.place i).trans (hplace i)
  queue k := (h.queue k).trans (hqueue k)
  entry k := (h.entry k).trans (hentry k)

theorem Shows.prune {place : Nat → Option (String × Bool)} {queue : String → List Nat}
    {entry : String → Prop} (h : s.Shows line place queue entry) (hkey : entry key) :
    (s.prune key).Shows line place queue
      fun k => entry k ∧ (k = key → ∃ i guarded, place i = some (key, guarded)) := by
  have hsome := Std.ExtTreeMap.mem_iff_isSome_getElem?.mp ((h.entry key).mpr hkey)
  obtain ⟨hshared, hcontenders, hqueue, hentry⟩ := h.shared.prune hsome
  refine ⟨hshared, fun i => ?_, fun k => (hqueue k).trans (h.queue k), fun k => ?_⟩
  · rw [← h.place, MutexTable.place, contender?, hcontenders]
    rfl
  · rw [hentry, h.entry]
    simp only [Stands, h.place]

/-! ### Steps -/

/-- Whoever asks stands last, and has the guard if nobody stood at the key. -/
theorem Shared.lock (hfair : M.Fair line) (h : s.Shared line) (key : String) :
    (s.lock key).1 = .of (s.queue line key).isEmpty ∧
      (s.lock key).2.Shows line
        (fun j => if j = s.contenders.length then some (key, (s.queue line key).isEmpty)
          else s.place j)
        (fun k => if k = key then s.queue line key ++ [s.contenders.length] else s.queue line k)
        (fun k => k = key ∨ k ∈ s.table) := by
  obtain ⟨h₁, hkey, hcontenders, hqueue, hentry⟩ := h.enter hfair key
  have hlock : s.lock key =
      (.of (M.ask ((s.enter key).2.state (s.enter key).1) (s.enter key).2.contenders.length).1,
        { (s.enter key).2 with
          mutexes := (s.enter key).2.mutexes.set (s.enter key).1
            (M.ask ((s.enter key).2.state (s.enter key).1) (s.enter key).2.contenders.length).2
          contenders := (s.enter key).2.contenders ++ [some ⟨key, (s.enter key).1,
            (M.ask ((s.enter key).2.state (s.enter key).1)
              (s.enter key).2.contenders.length).1⟩] }) := rfl
  rw [hcontenders] at hlock
  generalize (s.enter key).1 = m at hkey hlock
  generalize (s.enter key).2 = s₁ at h₁ hkey hcontenders hqueue hentry hlock
  have hold : ∀ j, s₁.contender? j = s.contender? j := by
    intro j
    rw [contender?, hcontenders, ← contender?]
  have hnew : s.contenders.length ∉ s.queue line key := by
    rw [h.members, stands_iff, contender?_length]
    rintro ⟨c, hc, -⟩
    cases hc
  have hline := (queue_of_entry line hkey).symm.trans (hqueue key)
  obtain ⟨hhad, hafter⟩ := hfair.ask _ _ (hline ▸ hnew)
  rw [hline] at hhad hafter
  rw [hhad] at hlock
  have hbefore : ∀ j ∈ s.queue line key, j < s.contenders.length := by
    intro j hj
    obtain ⟨c, hc, -⟩ := stands_iff.mp ((h.members key j).mp hj)
    exact lt_of_contender hc
  rw [hlock]
  refine ⟨rfl, ?_⟩
  have hshows := h₁.exchange (s.lock key).2 s.contenders.length
    (some ⟨key, m, (s.queue line key).isEmpty⟩) (M.ask (s₁.state m) s.contenders.length).2 hkey
    (by rw [hlock]) (by rw [hlock]) (fun j => ?_) (fun c hc => ?_) (fun c hc => ?_)
    (fun j => ?_) ?_ fun j _ hj => ?_
  · rw [hlock] at hshows
    refine ⟨hshows.shared, fun j => ?_, fun k => ?_, fun k => ?_⟩
    · rw [hshows.place, place, hold, ← place]
      rfl
    · rw [hshows.queue, hafter, hqueue]
    · rw [hshows.entry, hentry]
  · rw [hlock]
    exact (join_getElem?_append _ _ j).trans (by rw [hold]; rfl)
  · rw [hold, contender?_length] at hc
    cases hc
  · cases hc
    refine ⟨rfl, rfl, fun hempty => ?_⟩
    rw [hafter, List.isEmpty_iff.mp hempty]
    rfl
  · rw [hafter, hqueue, List.mem_append, List.mem_singleton]
    split_ifs with hj
    · exact ⟨fun _ => rfl, fun _ => .inr hj⟩
    · exact ⟨fun hmem => hmem.resolve_right hj, .inl⟩
  · rw [hafter, List.pairwise_append]
    refine ⟨h.rising key, List.pairwise_singleton _ _, fun a ha b hb => ?_⟩
    rw [List.mem_singleton.mp hb]
    exact hbefore a ha
  · have hfirst := h.first key j (by rw [Guards, place, ← hold]; exact hj)
    rw [hafter, List.head?_append, hfirst]
    rfl

/-- Asking again does nothing for one who stands nowhere. -/
theorem poll_of_place_eq_none (hi : s.place i = none) : s.poll i = (none, s) := by
  unfold MutexTable.poll
  rw [Option.map_eq_none_iff.mp hi]

theorem drop_of_place_eq_none (hi : s.place i = none) : s.drop i = s := by
  unfold MutexTable.drop
  rw [Option.map_eq_none_iff.mp hi]

/-- Whoever asks again has the guard if it stands first, and no line changes. -/
theorem Shared.poll (hfair : M.Fair line) (h : s.Shared line) {guarded : Bool}
    (hi : s.place i = some (key, guarded)) :
    (s.poll i).1 = some (.of (decide ((s.queue line key).head? = some i))) ∧
      (s.poll i).2.Shows line
        (fun j => if j = i then some (key, decide ((s.queue line key).head? = some i))
          else s.place j)
        (s.queue line) (· ∈ s.table) := by
  obtain ⟨c, hc, rfl, rfl⟩ := place_eq_some.mp hi
  have hmem : i ∈ s.queue line c.key := (h.members _ _).mpr ⟨_, hi⟩
  have hkey := h.reference i c hc
  rcases hguarded : c.guarded with _ | _
  swap
  · -- who has the guard stands first, and is told so without a word to the mutex
    have hfirst : (s.queue line c.key).head? = some i := h.first _ _ (hi.trans (by rw [hguarded]))
    have hpoll : s.poll i = (some .held, s) := by
      unfold MutexTable.poll
      rw [hc]
      dsimp only
      rw [if_pos hguarded]
    rw [hpoll]
    refine ⟨?_, h, fun j => ?_, fun _ => rfl, fun _ => .rfl⟩
    · rw [decide_eq_true hfirst]
      rfl
    · split_ifs with hj
      · rw [hj, hi, hguarded, decide_eq_true hfirst]
      · rfl
  have hline := queue_of_entry line hkey
  obtain ⟨hhad, hafter⟩ := hfair.poll _ _ (hline ▸ hmem)
  rw [← hline] at hhad hafter
  have hpoll : s.poll i = (some (.of (M.poll (s.state c.mutex) i).1), { s with
      mutexes := s.mutexes.set c.mutex (M.poll (s.state c.mutex) i).2
      contenders := s.contenders.set i
        (some { c with guarded := (M.poll (s.state c.mutex) i).1 }) }) := by
    unfold MutexTable.poll
    rw [hc]
    dsimp only
    rw [hguarded, if_neg (by decide)]
  have hshows := h.exchange (s.poll i).2 i
    (some { c with guarded := (M.poll (s.state c.mutex) i).1 }) (M.poll (s.state c.mutex) i).2 hkey
    (by rw [hpoll]) (by rw [hpoll]) (fun j => ?_) (fun d hd => ?_) (fun d hd => ?_)
    (fun j => ?_) ?_ fun j _ hj => ?_
  · refine ⟨?_, hshows.shared, fun j => ?_, fun k => ?_, hshows.entry⟩
    · rw [hpoll, hhad]
    · rw [hshows.place, hhad]
      rfl
    · rw [hshows.queue, hafter]
      split_ifs with hk
      · rw [hk]
      · rfl
  · rw [hpoll]
    exact join_getElem?_set (lt_of_contender hc) _ j
  · rw [hc] at hd
    cases hd
    rfl
  · cases hd
    refine ⟨rfl, rfl, fun hhad' => ?_⟩
    rw [hafter]
    exact of_decide_eq_true (hhad.symm.trans hhad')
  · rw [hafter]
    split_ifs with hj
    · rw [hj]
      exact ⟨fun _ => rfl, fun _ => hmem⟩
    · rfl
  · rw [hafter]
    exact h.rising _
  · rw [hafter]
    exact h.first _ _ hj

/-- Whoever lets go leaves the line.  If it was a guard, the entry of its key goes with the last
of the line. -/
theorem Shared.drop (hfair : M.Fair line) (h : s.Shared line) {guarded : Bool}
    (hi : s.place i = some (key, guarded)) :
    (s.drop i).Shows line (fun j => if j = i then none else s.place j)
      (fun k => if k = key then (s.queue line key).erase i else s.queue line k)
      (fun k => k ∈ s.table ∧ (guarded = true → k = key → ∃ j, j ≠ i ∧ s.Stands key j)) := by
  obtain ⟨c, hc, rfl, rfl⟩ := place_eq_some.mp hi
  have hmem : i ∈ s.queue line c.key := (h.members _ _).mpr ⟨_, hi⟩
  have hkey := h.reference i c hc
  have hline := queue_of_entry line hkey
  have hnodup : (s.queue line c.key).Nodup := (h.rising c.key).imp Nat.ne_of_lt
  -- whether it was a guard or a request, the mutex loses the one in its line
  have hafter : line (if c.guarded then M.release (s.state c.mutex)
      else M.cancel (s.state c.mutex) i) = (s.queue line c.key).erase i := by
    rcases hguarded : c.guarded with _ | _
    · rw [if_neg (by decide), hfair.cancel _ _ (hline ▸ hmem), hline]
    · have hfirst : (s.queue line c.key).head? = some i := h.first _ _ (hi.trans (by rw [hguarded]))
      rw [if_pos rfl, hfair.release _ (List.ne_nil_of_mem (hline ▸ hmem)), ← hline]
      obtain ⟨rest, hrest⟩ := List.head?_eq_some_iff.mp hfirst
      rw [hrest, List.erase_cons_head, List.tail_cons]
  obtain ⟨s₁, hs₁⟩ : ∃ s₁ : MutexTable M, s₁ = { s with
      mutexes := s.mutexes.set c.mutex (if c.guarded then M.release (s.state c.mutex)
        else M.cancel (s.state c.mutex) i)
      contenders := s.contenders.set i none } := ⟨_, rfl⟩
  have hdrop : s.drop i = if c.guarded then s₁.prune c.key else s₁ := by
    unfold MutexTable.drop
    rw [hc, hs₁]
  have hshows := h.exchange s₁ i none _ hkey (by rw [hs₁]) (by rw [hs₁]) (fun j => ?_)
    (fun d hd => ?_) (fun d hd => by cases hd) (fun j => ?_) ?_ fun j hj hguards => ?_
  · rw [hafter] at hshows
    rw [hdrop]
    split_ifs with hguarded
    · have hentry : c.key ∈ s.table := h.mem_table_of_stands ⟨_, hi⟩
      refine (hshows.prune hentry).congr (fun _ => rfl) (fun _ => rfl) fun k => ?_
      refine and_congr_right fun _ => ⟨fun hleft _ hk => ?_, fun hleft hk => ?_⟩
      · obtain ⟨j, guarded, hj⟩ := hleft hk
        by_cases hji : j = i
        · rw [if_pos hji] at hj
          cases hj
        · exact ⟨j, hji, guarded, (if_neg hji).symm.trans hj⟩
      · obtain ⟨j, hji, guarded, hj⟩ := hleft hguarded hk
        exact ⟨j, guarded, (if_neg hji).trans hj⟩
    · refine hshows.congr (fun _ => rfl) (fun _ => rfl) fun k => ?_
      exact ⟨fun hk => ⟨hk, fun hguarded' => absurd hguarded' hguarded⟩, And.left⟩
  · rw [hs₁]
    exact join_getElem?_set (lt_of_contender hc) none j
  · rw [hc] at hd
    cases hd
    rfl
  · rw [hafter, hnodup.mem_erase_iff]
    split_ifs with hj
    · simp [hj]
    · simp [hj]
  · rw [hafter]
    exact (h.rising _).sublist (List.erase_sublist)
  · have hfirst := h.first _ _ hguards
    rw [hafter]
    obtain ⟨rest, hrest⟩ := List.head?_eq_some_iff.mp hfirst
    rw [hrest, List.erase_cons_tail (by simpa using hj)]
    rfl

theorem Shared.step (hfair : M.Fair line) (h : s.Shared line) (e : LockStep) :
    (s.step e).2.Shared line := by
  cases e with
  | lock key => exact (h.lock hfair key).2.shared
  | poll i =>
    rcases hi : s.place i with _ | ⟨key, guarded⟩
    · rw [MutexTable.step, poll_of_place_eq_none hi]
      exact h
    · exact (h.poll hfair hi).2.shared
  | drop i =>
    rcases hi : s.place i with _ | ⟨key, guarded⟩
    · rw [MutexTable.step, drop_of_place_eq_none hi]
      exact h
    · exact (h.drop hfair hi).shared

theorem Shared.run (hfair : M.Fair line) (h : s.Shared line) (steps : List LockStep) :
    (s.run steps).Shared line := by
  induction steps generalizing s with
  | nil => exact h
  | cons e steps ih => exact ih (h.step hfair e)

theorem after_concat (steps : List LockStep) (e : LockStep) :
    after M (steps ++ [e]) = ((after M steps).step e).2 := by
  simp only [after, run, List.foldl_append, List.foldl_cons, List.foldl_nil]

/-- **Whatever is done about locks**, contenders for a key share its mutex. -/
theorem shared_after (hfair : M.Fair line) (steps : List LockStep) :
    (after M steps).Shared line :=
  shared_empty.run hfair steps

end MutexTable

end IdentityStore
