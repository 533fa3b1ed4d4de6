/-
Lists in which every name occurs once.

Putting a member in keeps the names of a list apart, and so does taking one out.  A run
of members of different names comes to itself, so that a list that is kept this way is
read as it was written: `ofEntries_toEntries`.

Any other run is gone through member by member, and what it comes to is told without that:
`Condenses` gives the names in the order in which they first occur, and each name the
identifier that it is last given.
-/
import IdentityStore.Membership
import IdentityStore.Proofs.Principal

namespace IdentityStore.Membership

/-- The names of members. -/
abbrev names (ms : List Member) : List String := ms.map Member.name

/-! ### Putting a member in -/

theorem upsert_of_not_mem {m : Member} {ms : List Member} (h : m.name ∉ names ms) :
    upsert m ms = ms ++ [m] := by
  induction ms with
  | nil => rfl
  | cons a rest ih =>
      have ha : a.name ≠ m.name := fun heq => h (by simp [names, heq])
      have hrest : m.name ∉ names rest := fun hmem => h (by simp [names] at hmem ⊢; exact .inr hmem)
      rw [upsert, if_neg ha, ih hrest, List.cons_append]

theorem names_upsert_of_mem {m : Member} {ms : List Member} (h : m.name ∈ names ms) :
    names (upsert m ms) = names ms := by
  induction ms with
  | nil => cases h
  | cons a rest ih =>
      rw [upsert]
      by_cases ha : a.name = m.name
      · rw [if_pos ha, names, names, List.map_cons, List.map_cons, ha]
      · rw [if_neg ha, names, names, List.map_cons, List.map_cons]
        rcases List.mem_cons.mp h with hm | hm
        · exact absurd hm.symm ha
        · exact congrArg _ (ih hm)

theorem names_upsert (m : Member) (ms : List Member) :
    names (upsert m ms) = if m.name ∈ names ms then names ms else names ms ++ [m.name] := by
  by_cases h : m.name ∈ names ms
  · rw [if_pos h, names_upsert_of_mem h]
  · rw [if_neg h, upsert_of_not_mem h, names, List.map_append]
    rfl

theorem nodup_upsert {ms : List Member} (h : (names ms).Nodup) (m : Member) :
    (names (upsert m ms)).Nodup := by
  rw [names_upsert]
  by_cases hm : m.name ∈ names ms
  · rw [if_pos hm]
    exact h
  · rw [if_neg hm, List.nodup_append]
    refine ⟨h, List.nodup_singleton _, fun a ha b hb heq => hm ?_⟩
    rw [← List.mem_singleton.mp hb, ← heq]
    exact ha

theorem mem_upsert {m a : Member} {ms : List Member} (h : a ∈ upsert m ms) : a = m ∨ a ∈ ms := by
  induction ms with
  | nil => exact .inl (List.mem_singleton.mp h)
  | cons b rest ih =>
      rw [upsert] at h
      split_ifs at h
      · exact (List.mem_cons.mp h).imp id (List.mem_cons_of_mem b)
      · rcases List.mem_cons.mp h with rfl | h
        · exact .inr (by simp)
        · exact (ih h).imp id (List.mem_cons_of_mem b)

/-- A member is found by its name. -/
theorem find?_of_mem {m : Member} {ms : List Member} (h : (names ms).Nodup) (hm : m ∈ ms) :
    ms.find? (·.name = m.name) = some m := by
  rcases hfind : ms.find? (·.name = m.name) with _ | a
  · simpa using List.find?_eq_none.mp hfind m hm
  · have ha := List.mem_of_find?_eq_some hfind
    have hname : a.name = m.name := by simpa using List.find?_some hfind
    rw [hfind, List.inj_on_of_nodup_map h ha hm hname]

/-! ### Taking a member out -/

theorem nodup_without {ms : List Member} (h : (names ms).Nodup) (n : String) :
    (names (without n ms)).Nodup :=
  h.sublist (List.filter_sublist.map _)

theorem names_without (n : String) (ms : List Member) :
    names (without n ms) = (names ms).filter (· ≠ n) := by
  rw [without, names, names, List.filter_map]
  rfl

theorem mem_without {m : Member} {n : String} {ms : List Member} :
    m ∈ without n ms ↔ m ∈ ms ∧ m.name ≠ n := by
  simp [without]

/-- A list from which a name takes nothing out is left as it is. -/
theorem without_of_not_mem {n : String} {ms : List Member} (h : n ∉ names ms) :
    without n ms = ms := by
  refine List.filter_eq_self.mpr ?_
  intro m hm
  simp only [decide_eq_true_eq]
  exact fun heq => h (heq ▸ List.mem_map_of_mem hm)

@[simp] theorem without_without (n : String) (ms : List Member) :
    without n (without n ms) = without n ms := by
  simp [without, List.filter_filter]

theorem length_without_eq_iff {n : String} {ms : List Member} :
    (without n ms).length = ms.length ↔ n ∉ names ms := by
  constructor
  · intro h hmem
    obtain ⟨m, hm, rfl⟩ := List.mem_map.mp hmem
    have hsame := List.filter_eq_self.mp (List.filter_sublist.eq_of_length h) m hm
    simp at hsame
  · intro h
    rw [without_of_not_mem h]

/-! ### Runs of members -/

theorem nodup_collapse (run : List Member) : (names (collapse run)).Nodup := by
  have hfold : ∀ (run ms : List Member), (names ms).Nodup →
      (names (run.foldl (fun ms m => upsert m ms) ms)).Nodup := by
    intro run
    induction run with
    | nil => exact fun ms h => h
    | cons m run ih => exact fun ms h => ih _ (nodup_upsert h m)
  exact hfold run [] List.nodup_nil

/-- Members of different names come to themselves. -/
theorem collapse_of_nodup {ms : List Member} (h : (names ms).Nodup) : collapse ms = ms := by
  have hfold : ∀ (run ms : List Member), (names (ms ++ run)).Nodup →
      run.foldl (fun ms m => upsert m ms) ms = ms ++ run := by
    intro run
    induction run with
    | nil => exact fun ms _ => (List.append_nil ms).symm
    | cons m run ih =>
        intro ms hms
        have hm : m.name ∉ names ms := by
          intro hmem
          rw [names, List.map_append, List.nodup_append] at hms
          exact hms.2.2 _ hmem _ (by simp) rfl
        rw [List.foldl_cons, upsert_of_not_mem hm, ih, List.append_assoc]
        · rfl
        · rw [List.append_assoc]
          exact hms
  exact hfold ms [] h

theorem collapse_concat (run : List Member) (m : Member) :
    collapse (run ++ [m]) = upsert m (collapse run) := by
  rw [collapse, List.foldl_append]
  rfl

theorem find?_upsert (m : Member) (ms : List Member) (n : String) :
    (upsert m ms).find? (·.name = n)
      = if m.name = n then some m else ms.find? (·.name = n) := by
  induction ms with
  | nil => by_cases hn : m.name = n <;> simp [upsert, hn]
  | cons a rest ih =>
      rw [upsert]
      by_cases ha : a.name = m.name
      · by_cases hn : m.name = n <;> simp [ha, hn]
      · rw [if_neg ha]
        by_cases hn : a.name = n
        · have hm : m.name ≠ n := fun hm => ha (hn.trans hm.symm)
          simp [hn, hm]
        · simp [hn, ih]

/-- **A name keeps the place where it first occurs.** -/
theorem names_collapse (run : List Member) : names (collapse run) = (names run).eraseDups := by
  induction run using List.reverseRecOn with
  | nil => rfl
  | append_singleton run m ih =>
      have hnames : names (run ++ [m]) = names run ++ [m.name] := List.map_append
      rw [collapse_concat, names_upsert, ih, hnames, List.eraseDups_append]
      by_cases hm : m.name ∈ names run
      · have hnone : [m.name].removeAll (names run) = [] := by
          simpa [List.removeAll] using hm
        simp [hnone, hm]
      · have hself : [m.name].removeAll (names run) = [m.name] := by
          simpa [List.removeAll] using hm
        simp [hself, hm, List.eraseDups_cons]

/-- **A name has the identifier that it is last given.** -/
theorem find?_collapse (run : List Member) (n : String) :
    (collapse run).find? (·.name = n) = run.findRev? (·.name = n) := by
  rw [List.findRev?_eq_find?_reverse]
  induction run using List.reverseRecOn with
  | nil => rfl
  | append_singleton run m ih =>
      rw [collapse_concat, find?_upsert, ih, List.reverse_append]
      by_cases hn : m.name = n <;> simp [hn]

/-- What members of a run say together: each name once, in the order in which the names first
occur, and with the identifier that it is last given. -/
structure Condenses (run ms : List Member) : Prop where
  names_eq : names ms = (names run).eraseDups
  last : ∀ m ∈ ms, run.findRev? (·.name = m.name) = some m

theorem condenses_collapse (run : List Member) : Condenses run (collapse run) := by
  refine ⟨names_collapse run, fun m hm => ?_⟩
  rw [← find?_collapse, find?_of_mem (nodup_collapse run) hm]

/-- No other list says what a run says together. -/
theorem Condenses.unique {run ms ms' : List Member} (h : Condenses run ms)
    (h' : Condenses run ms') : ms = ms' := by
  have hlookup : ∀ {ms}, Condenses run ms →
      (names run).eraseDups.filterMap (fun n => run.findRev? (·.name = n)) = ms := by
    intro ms h
    rw [← h.names_eq, List.filterMap_map]
    exact (List.filterMap_congr h.last).trans List.filterMap_some
  rw [← hlookup h, hlookup h']

/-! ### Entries -/

section Entries

variable {entries front : List String} {entry : String} {batches : List (List Member)}
  {ms : List Member} {fault : Fault}

/-- The entries spell these members, each entry its own. -/
abbrev Spells (entries : List String) (batches : List (List Member)) : Prop :=
  List.Forall₂ (fun entry ms => Member.readEntry entry = .ok ms) entries batches

theorem spells_writeEntry (batches : List (List Member)) :
    Spells (batches.map Member.writeEntry) batches := by
  rw [Spells, List.forall₂_map_left_iff, List.forall₂_same]
  exact fun ms _ => Member.readEntry_writeEntry ms

theorem mapM_readEntry_of_spells (h : Spells entries batches) :
    entries.mapM Member.readEntry = .ok batches := by
  induction h with
  | nil => rfl
  | cons hentry _ ih =>
      rw [List.mapM_cons, hentry, ih]
      rfl

/-- Entries that can all be read are taken together. -/
theorem ofEntries_of_spells (h : Spells entries batches) :
    ofEntries entries = .ok (collapse batches.flatten) := by
  unfold ofEntries
  rw [mapM_readEntry_of_spells h]
  rfl

/-- The first entry that cannot be read is at fault. -/
theorem ofEntries_of_fault (hfront : Spells front batches)
    (hentry : Member.readEntry entry = .error fault) (back : List String) :
    ofEntries (front ++ entry :: back) = .error fault := by
  unfold ofEntries
  rw [List.mapM_append, mapM_readEntry_of_spells hfront, List.mapM_cons, hentry]
  rfl

/-- In front of the first entry that cannot be read there are only entries that can. -/
theorem exists_first_fault (h : ¬ ∃ batches, Spells entries batches) :
    ∃ front entry fault back, entries = front ++ entry :: back ∧
      (∃ batches, Spells front batches) ∧ Member.readEntry entry = .error fault := by
  induction entries with
  | nil => exact absurd ⟨[], .nil⟩ h
  | cons entry entries ih =>
      rcases hread : Member.readEntry entry with fault | ms
      · exact ⟨[], entry, fault, entries, rfl, ⟨[], .nil⟩, hread⟩
      · have hrest : ¬ ∃ batches, Spells entries batches := by
          intro ⟨batches, hbatches⟩
          exact h ⟨ms :: batches, .cons hread hbatches⟩
        obtain ⟨front, first, fault, back, rfl, ⟨batches, hfront⟩, hfirst⟩ := ih hrest
        exact ⟨entry :: front, first, fault, back, rfl, ⟨ms :: batches, .cons hread hfront⟩, hfirst⟩

/-- An entry that can be read is not at fault. -/
theorem readEntry_of_spells (h : Spells entries batches) (hentry : entry ∈ entries) :
    ∃ ms, Member.readEntry entry = .ok ms := by
  induction h with
  | nil => cases hentry
  | cons hread _ ih =>
      rcases List.mem_cons.mp hentry with rfl | hmem
      · exact ⟨_, hread⟩
      · exact ih hmem

/-- One entry spells its members. -/
theorem ofEntries_singleton (hread : Member.readEntry entry = .ok ms) (h : (names ms).Nodup) :
    ofEntries [entry] = .ok ms := by
  rw [ofEntries_of_spells (.cons hread .nil), List.flatten_singleton, collapse_of_nodup h]

end Entries

/-- The members that entries spell have different names. -/
theorem nodup_ofEntries {entries : List String} {ms : List Member}
    (h : ofEntries entries = .ok ms) : (names ms).Nodup := by
  obtain ⟨batches, -, h⟩ := Json.exists_of_bind_eq_ok h
  cases h
  exact nodup_collapse _

end IdentityStore.Membership
