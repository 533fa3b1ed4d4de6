/-
Locks are handed out one at a time and in the order of asking.

The line of a key is in the order of asking, and nobody but its first can have the guard.  If its
first has not been told yet, it is its turn: `Turn`.  A turn is lost only by asking again, which
gives the guard, or by letting go.  No step of anybody else ends it, neither at the key, where
they come to stand behind or leave the line from behind, nor at any other: `Turn.step`.
-/
import IdentityStore.Proofs.Locks.Sharing

namespace IdentityStore

namespace MutexTable

variable {M : Mutex} {line : M.State → List Nat} {s : MutexTable M} {key : String} {i j : Nat}

/-- Nobody has the guard of a key, and of those who stand there the one of a number asked
first. -/
structure Turn (s : MutexTable M) (key : String) (i : Nat) : Prop where
  stands : s.Stands key i
  earliest : ∀ j, s.Stands key j → i ≤ j
  free : ∀ j, ¬ s.Guards key j

/-! ### One guard at a time -/

theorem Shared.guards_unique (h : s.Shared line) (hi : s.Guards key i) (hj : s.Guards key j) :
    i = j :=
  Option.some.inj ((h.first key i hi).symm.trans (h.first key j hj))

/-- Who stands first in the line of a key asked first. -/
theorem Shared.le_of_head? (h : s.Shared line) (hi : (s.queue line key).head? = some i)
    (hj : s.Stands key j) : i ≤ j := by
  obtain ⟨rest, hrest⟩ := List.head?_eq_some_iff.mp hi
  have hmem := (h.members key j).mpr hj
  have hrising := h.rising key
  rw [hrest] at hmem hrising
  rcases List.mem_cons.mp hmem with rfl | hmem
  · exact Nat.le_refl _
  · exact Nat.le_of_lt ((List.pairwise_cons.mp hrising).1 j hmem)

/-- It is the turn of the first in line if nobody has the guard. -/
theorem Shared.turn_iff (h : s.Shared line) :
    s.Turn key i ↔ (s.queue line key).head? = some i ∧ ∀ j, ¬ s.Guards key j := by
  constructor
  · intro hturn
    refine ⟨?_, hturn.free⟩
    rcases hhead : (s.queue line key).head? with _ | j
    · exact absurd hturn.stands (h.queue_eq_nil_iff.mp (List.head?_eq_none_iff.mp hhead) i)
    · have hle := hturn.earliest j (h.stands_of_queue hhead)
      rw [Nat.le_antisymm hle (h.le_of_head? hhead hturn.stands)]
  · rintro ⟨hhead, hfree⟩
    exact ⟨h.stands_of_queue hhead, fun j hj => h.le_of_head? hhead hj, hfree⟩

/-- It is somebody's turn at a key where somebody waits and nobody has the guard. -/
theorem Shared.exists_turn (h : s.Shared line) (hi : s.Stands key i)
    (hfree : ∀ j, ¬ s.Guards key j) : ∃ j, s.Turn key j := by
  have hmem := (h.members key i).mpr hi
  obtain ⟨j, rest, hqueue⟩ := List.exists_cons_of_ne_nil (List.ne_nil_of_mem hmem)
  refine ⟨j, h.turn_iff.mpr ⟨?_, hfree⟩⟩
  rw [hqueue]
  rfl

/-! ### A turn lasts -/

theorem Turn.place (hturn : s.Turn key i) : s.place i = some (key, false) := by
  obtain ⟨guarded, hi⟩ := hturn.stands
  cases guarded with
  | false => exact hi
  | true => exact absurd hi (hturn.free i)

/-- **What others do** does not end a turn. -/
theorem Turn.step (hfair : M.Fair line) (h : s.Shared line) (hturn : s.Turn key i) {e : LockStep}
    (hpoll : e ≠ .poll i) (hdrop : e ≠ .drop i) : (s.step e).2.Turn key i := by
  obtain ⟨hhead, hfree⟩ := h.turn_iff.mp hturn
  cases e with
  | lock k =>
    have hshows := (h.lock hfair k).2
    refine hshows.shared.turn_iff.mpr ⟨?_, fun j hj => ?_⟩
    · rw [hshows.queue]
      split_ifs with hk
      · rw [← hk, List.head?_append, hhead]
        rfl
      · exact hhead
    · rw [Guards, hshows.place] at hj
      split_ifs at hj
      · -- the newcomer would have the guard only if nobody stood there
        obtain ⟨rfl, hempty⟩ := Prod.mk.inj (Option.some.inj hj)
        rw [List.isEmpty_iff.mp hempty] at hhead
        cases hhead
      · exact hfree j hj
  | poll j =>
    rcases hj : s.place j with _ | ⟨k, guarded⟩
    · rw [MutexTable.step, poll_of_place_eq_none hj]
      exact hturn
    have hshows := (h.poll hfair hj).2
    refine hshows.shared.turn_iff.mpr ⟨(hshows.queue key).symm ▸ hhead, fun n hn => ?_⟩
    rw [Guards, hshows.place] at hn
    split_ifs at hn
    · obtain ⟨rfl, hfirst⟩ := Prod.mk.inj (Option.some.inj hn)
      have heq := Option.some.inj (hhead.symm.trans (of_decide_eq_true hfirst))
      exact hpoll (by rw [heq])
    · exact hfree n hn
  | drop j =>
    rcases hj : s.place j with _ | ⟨k, guarded⟩
    · rw [MutexTable.step, drop_of_place_eq_none hj]
      exact hturn
    have hshows := h.drop hfair hj
    refine hshows.shared.turn_iff.mpr ⟨?_, fun n hn => ?_⟩
    · rw [hshows.queue]
      split_ifs with hk
      · obtain ⟨rest, hrest⟩ := List.head?_eq_some_iff.mp hhead
        have hne : ¬ (i == j) = true := fun heq => hdrop (by rw [beq_iff_eq.mp heq])
        rw [← hk, hrest, List.erase_cons_tail hne]
        rfl
      · exact hhead
    · rw [Guards, hshows.place] at hn
      split_ifs at hn
      exact hfree n hn

theorem Turn.run (hfair : M.Fair line) (h : s.Shared line) (hturn : s.Turn key i)
    {steps : List LockStep} (hpoll : .poll i ∉ steps) (hdrop : .drop i ∉ steps) :
    (s.run steps).Turn key i := by
  induction steps generalizing s with
  | nil => exact hturn
  | cons e steps ih =>
    rw [List.mem_cons, not_or] at hpoll hdrop
    exact ih (h.step hfair e) (hturn.step hfair h (Ne.symm hpoll.1) (Ne.symm hdrop.1)) hpoll.2
      hdrop.2

/-- Whose turn it is has the guard when it asks again. -/
theorem Turn.poll (hfair : M.Fair line) (h : s.Shared line) (hturn : s.Turn key i) :
    (s.poll i).1 = some .held ∧ (s.poll i).2.Guards key i := by
  have hhead := (h.turn_iff.mp hturn).1
  obtain ⟨hanswer, hshows⟩ := h.poll hfair hturn.place
  rw [decide_eq_true hhead] at hanswer
  refine ⟨hanswer, ?_⟩
  rw [Guards, hshows.place, if_pos rfl, decide_eq_true hhead]

/-- Whoever asks for a key where nobody stands has the guard at once. -/
theorem Shared.lock_of_free (hfair : M.Fair line) (h : s.Shared line)
    (hfree : ∀ i, ¬ s.Stands key i) :
    (s.lock key).1 = .held ∧ (s.lock key).2.Guards key s.contenders.length := by
  obtain ⟨hanswer, hshows⟩ := h.lock hfair key
  rw [h.queue_eq_nil_iff.mpr hfree] at hanswer hshows
  refine ⟨hanswer, ?_⟩
  rw [Guards, hshows.place, if_pos rfl]
  rfl

/-- **Locks are exclusive and go to who asked first**, whatever is done about them.  At most one
has the guard of a key.  If nobody has it and somebody waits, it is the turn of the one who asked
first: however the others go on, nobody else gets the guard, and asking again gives it.  Whoever
asks for a key where nobody stands has the guard at once. -/
theorem exclusive_in_turn (M : Mutex) (line : M.State → List Nat) (hfair : M.Fair line)
    (steps : List LockStep) (key : String) :
    (∀ i j, (after M steps).Guards key i → (after M steps).Guards key j → i = j) ∧
    ((∃ i, (after M steps).Stands key i) → (∀ i, ¬ (after M steps).Guards key i) →
      ∃ i, (after M steps).Turn key i ∧
        ∀ more, .poll i ∉ more → .drop i ∉ more →
          (∀ j, ¬ ((after M steps).run more).Guards key j) ∧
          (((after M steps).run more).poll i).1 = some .held ∧
          (((after M steps).run more).poll i).2.Guards key i) ∧
    ((∀ i, ¬ (after M steps).Stands key i) →
      ((after M steps).lock key).1 = .held ∧
      ((after M steps).lock key).2.Guards key (after M steps).contenders.length) := by
  have h := shared_after hfair steps
  refine ⟨fun i j => h.guards_unique, ?_, h.lock_of_free hfair⟩
  rintro ⟨i, hi⟩ hfree
  obtain ⟨first, hturn⟩ := h.exists_turn hi hfree
  refine ⟨first, hturn, fun more hpoll hdrop => ?_⟩
  have hlater := hturn.run hfair h hpoll hdrop
  exact ⟨hlater.free, hlater.poll hfair (h.run hfair more)⟩

/-- The lock goes to who asked second, though the third asks again before. -/
theorem exclusive_in_turn_handed :
    Mutex.queue.Fair id ∧
      (∃ i, (after .queue [.lock "k", .lock "k", .lock "k", .drop 0]).Stands "k" i) ∧
      (∀ i, ¬ (after .queue [.lock "k", .lock "k", .lock "k", .drop 0]).Guards "k" i) ∧
      ∃ i, .poll i ∉ [LockStep.lock "l", .poll 2] ∧ .drop i ∉ [LockStep.lock "l", .poll 2] ∧
        (((after .queue [.lock "k", .lock "k", .lock "k", .drop 0]).run
          [.lock "l", .poll 2]).poll i).1 = some .held := by
  have hcontenders : (after .queue [.lock "k", .lock "k", .lock "k", .drop 0]).contenders =
      [none, some ⟨"k", 0, false⟩, some ⟨"k", 0, false⟩] := by decide +kernel
  have hstands : (after .queue [.lock "k", .lock "k", .lock "k", .drop 0]).Stands "k" 1 :=
    ⟨false, by rw [MutexTable.place, contender?, hcontenders]; rfl⟩
  have hfree : ∀ i, ¬ (after .queue [.lock "k", .lock "k", .lock "k", .drop 0]).Guards "k" i := by
    intro i hi
    obtain ⟨c, hc, -, hguarded⟩ := place_eq_some.mp hi
    rw [contender?, hcontenders] at hc
    rcases i with _ | _ | _ | i <;> cases hc <;> cases hguarded
  obtain ⟨i, hturn, hmore⟩ :=
    (exclusive_in_turn .queue id Mutex.fair_queue _ "k").2.1 ⟨1, hstands⟩ hfree
  have hpoll : .poll i ∉ [LockStep.lock "l", .poll 2] := by
    have hle := hturn.earliest 1 hstands
    simp only [List.mem_cons, reduceCtorEq, LockStep.poll.injEq, List.not_mem_nil, or_false,
      false_or]
    omega
  have hdrop : .drop i ∉ [LockStep.lock "l", .poll 2] := by simp
  exact ⟨Mutex.fair_queue, ⟨1, hstands⟩, hfree, i, hpoll, hdrop, (hmore _ hpoll hdrop).2.1⟩

end MutexTable

end IdentityStore
