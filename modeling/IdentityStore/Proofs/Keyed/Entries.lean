/-
A list that is spread over entries is read as one.

Programs of old added an entry to a list for every change and never looked at the ones before, so a
name may stand in many entries, and in one of them more than once.  What the entries spell one after
the other is all that counts: each name is listed once, where it first occurs, with the identifier
that it is last given.  `Membership.Condenses` says so without going through the members one by one,
and no two lists condense the same members.

An entry that spells no members makes the whole list unreadable.  The first such entry is the one
that is told of.
-/
import IdentityStore.Proofs.Keyed.Retry

namespace IdentityStore

namespace Keyed

open IdentityStore.Membership (Condenses Spells collapse condenses_collapse names toEntries)
open MemoryStore (answerIn)

variable {order : ScanOrder} {s : MemoryStore} {key : String} {entries : List String}
  {batches : List (List Member)}

theorem run_loadMembers_of_spells (hon : s.online = true) (hlist : s.list? key = .ok entries)
    (h : Spells entries batches) :
    (loadMembers key).run (answerIn order) s = (.ok (collapse batches.flatten), s) := by
  rw [run_loadMembers_of_list hon hlist, Membership.ofEntries_of_spells h]
  rfl

/-- **The entries of a list are taken together.**

* If all entries can be read, the list is read as what their members say together: each name once,
  where it first occurs, with the identifier that it is last given.
* Any other entries in their place that spell the same members one after the other are read as the
  same list.
* Written as one entry, the list is read again as it is.
* If an entry cannot be read, the list cannot, and the error tells of the first such entry. -/
theorem entries_taken_together (order : ScanOrder) (s : MemoryStore) (key : String)
    (entries : List String) (hon : s.online = true) (hlist : s.list? key = .ok entries) :
    (∀ batches, Spells entries batches →
      ∃ ms, (loadMembers key).run (answerIn order) s = (.ok ms, s) ∧
        Condenses batches.flatten ms ∧
        (∀ entries' batches', Spells entries' batches' → batches'.flatten = batches.flatten →
          (loadMembers key).run (answerIn order) (s.put key (.list entries'))
            = (.ok ms, s.put key (.list entries'))) ∧
        ∃ s', (Plan.ask (.setList key (toEntries ms))).run (answerIn order) s = (.ok (), s') ∧
          (loadMembers key).run (answerIn order) s' = (.ok ms, s')) ∧
    ((∃ entry ∈ entries, ∃ fault, Member.readEntry entry = .error fault) →
      ∃ front entry fault back, entries = front ++ entry :: back ∧
        (∃ batches, Spells front batches) ∧ Member.readEntry entry = .error fault ∧
        (loadMembers key).run (answerIn order) s
          = (.error (.internal
              s!"stored membership at '{key}' is corrupt: {fault.message}"), s)) := by
  refine ⟨fun batches h => ?_, fun hfaulty => ?_⟩
  · refine ⟨collapse batches.flatten, run_loadMembers_of_spells hon hlist h,
      condenses_collapse batches.flatten, fun entries' batches' h' hsame => ?_,
      s.put key (.list (toEntries (collapse batches.flatten))), run_writeMembers hon key _, ?_⟩
    · rw [← hsame]
      exact run_loadMembers_of_spells hon (MemoryStore.list?_put s key entries') h'
    · exact run_loadMembers_of_contents hon
        (contents_of_entry (by simp [MemoryStore.getElem?_put])
          (Membership.nodup_collapse batches.flatten))
  · have hunread : ¬ ∃ batches, Spells entries batches := by
      intro ⟨batches, h⟩
      obtain ⟨entry, hentry, fault, hfault⟩ := hfaulty
      obtain ⟨ms, hread⟩ := Membership.readEntry_of_spells h hentry
      rw [hread] at hfault
      cases hfault
    obtain ⟨front, entry, fault, back, rfl, ⟨batches, hfront⟩, hfault⟩ :=
      Membership.exists_first_fault hunread
    refine ⟨front, entry, fault, back, rfl, ⟨batches, hfront⟩, hfault, ?_⟩
    rw [run_loadMembers_of_list hon hlist, Membership.ofEntries_of_fault hfront hfault]
    rfl

/-- An identifier that is not that of nothing. -/
def onesId : Uuid := ⟨List.replicate 32 ⟨1, by decide⟩, List.length_replicate⟩

/-- A client that was added twice, with another identifier the second time. -/
def addedTwice : List (List Member) := [[⟨.nil, "web"⟩, ⟨.nil, "old"⟩], [⟨onesId, "web"⟩]]

theorem entries_taken_together_web :
    let key := KeySpace.default.members .client "acme"
    let twice := MemoryStore.empty.put key (.list (addedTwice.map Member.writeEntry))
    let spoiled := MemoryStore.empty.put key (.list [Member.writeEntry [⟨.nil, "web"⟩], "["])
    Spells (addedTwice.map Member.writeEntry) addedTwice ∧
      (loadMembers key).run (answerIn .rising) twice
        = (.ok [⟨onesId, "web"⟩, ⟨.nil, "old"⟩], twice) ∧
      Member.readEntry "[" = .error .endOfList ∧
      ∃ detail, (loadMembers key).run (answerIn .rising) spoiled
        = (.error (.internal detail), spoiled) := by
  intro key twice spoiled
  have hspells := Membership.spells_writeEntry addedTwice
  have hfault : Member.readEntry "[" = .error .endOfList := by decide +kernel
  refine ⟨hspells, ?_, hfault, ?_⟩
  · have htwice := entries_taken_together .rising twice key _ rfl (MemoryStore.list?_put _ key _)
    obtain ⟨ms, hload, hms, -⟩ := htwice.1 addedTwice hspells
    have hweb : Condenses addedTwice.flatten [⟨onesId, "web"⟩, ⟨.nil, "old"⟩] :=
      ⟨by decide, by decide⟩
    rw [hload, hms.unique hweb]
  · have hspoiled := entries_taken_together .rising spoiled key _ rfl (MemoryStore.list?_put _ key _)
    obtain ⟨_, _, fault, _, -, -, -, hload⟩ := hspoiled.2 ⟨"[", by simp, _, hfault⟩
    exact ⟨_, hload⟩

end Keyed

end IdentityStore
