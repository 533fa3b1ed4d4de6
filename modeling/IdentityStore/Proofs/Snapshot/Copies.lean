/-
Lists of records in which every name occurs once.

Tables and realms hold records in lists.  Putting a record in, and taking one out, keeps
names apart, and where a list has what a map says of some names, it has it again after both
were changed: `filterMap_update` and its relatives connect the two.
-/
import IdentityStore.Snapshot.Change
import IdentityStore.Proofs.Principal

namespace IdentityStore.Snapshot

open Principal (name)

variable {α : Type} [Principal α] {a b : α} {as : List α} {n : String}

/-! ### Putting a record in -/

theorem upsert_of_not_mem (h : name a ∉ as.map name) : upsert a as = as ++ [a] := by
  induction as with
  | nil => rfl
  | cons b rest ih =>
      have hb : name b ≠ name a := fun heq => h (by simp [heq])
      have hrest : name a ∉ rest.map name := fun hmem => h (List.mem_cons_of_mem _ hmem)
      rw [upsert, if_neg hb, ih hrest, List.cons_append]

theorem names_upsert (a : α) (as : List α) :
    (upsert a as).map name
      = if name a ∈ as.map name then as.map name else as.map name ++ [name a] := by
  induction as with
  | nil => simp [upsert]
  | cons b rest ih =>
      rw [upsert]
      by_cases hb : name b = name a
      · simp [hb]
      · have hne : name a ≠ name b := fun heq => hb heq.symm
        rw [if_neg hb, List.map_cons, List.map_cons, ih]
        by_cases hmem : name a ∈ rest.map name
        · rw [if_pos hmem, if_pos (List.mem_cons_of_mem _ hmem)]
        · rw [if_neg hmem, if_neg fun h => (List.mem_cons.mp h).elim hne hmem, List.cons_append]

theorem nodup_upsert (h : (as.map name).Nodup) (a : α) : ((upsert a as).map name).Nodup := by
  rw [names_upsert]
  by_cases hmem : name a ∈ as.map name
  · rw [if_pos hmem]
    exact h
  · rw [if_neg hmem, List.nodup_append]
    refine ⟨h, List.nodup_singleton _, fun m hm m' hm' heq => hmem ?_⟩
    rw [← List.mem_singleton.mp hm', ← heq]
    exact hm

theorem mem_upsert_self (a : α) (as : List α) : a ∈ upsert a as := by
  induction as with
  | nil => exact List.mem_singleton_self a
  | cons b rest ih =>
      rw [upsert]
      split_ifs
      · exact List.mem_cons_self
      · exact List.mem_cons_of_mem b ih

theorem mem_upsert_of_ne (hb : b ∈ as) (h : name b ≠ name a) : b ∈ upsert a as := by
  induction as with
  | nil => cases hb
  | cons c rest ih =>
      rw [upsert]
      rcases List.mem_cons.mp hb with rfl | hb
      · rw [if_neg h]
        exact List.mem_cons_self
      · split_ifs
        · exact List.mem_cons_of_mem a hb
        · exact List.mem_cons_of_mem c (ih hb)

/-- A list of different names has one record of the name that was put in. -/
theorem eq_of_mem_upsert (h : (as.map name).Nodup) (hb : b ∈ upsert a as) :
    b = a ∨ (b ∈ as ∧ name b ≠ name a) := by
  have hnodup := nodup_upsert h a
  by_cases hname : name b = name a
  · exact .inl (List.inj_on_of_nodup_map hnodup hb (mem_upsert_self a as) hname)
  · refine .inr ⟨?_, hname⟩
    clear h hnodup
    induction as with
    | nil => exact absurd (congrArg name (List.mem_singleton.mp hb)) hname
    | cons c rest ih =>
        rw [upsert] at hb
        split_ifs at hb
        · rcases List.mem_cons.mp hb with rfl | hb
          · exact absurd rfl hname
          · exact List.mem_cons_of_mem c hb
        · rcases List.mem_cons.mp hb with rfl | hb
          · exact List.mem_cons_self
          · exact List.mem_cons_of_mem c (ih hb)

/-- Putting in a record that is there changes nothing. -/
theorem upsert_of_mem (h : (as.map name).Nodup) (ha : a ∈ as) : upsert a as = as := by
  induction as with
  | nil => cases ha
  | cons b rest ih =>
      rw [upsert]
      split_ifs with hb
      · rw [List.inj_on_of_nodup_map h List.mem_cons_self ha hb]
      · rcases List.mem_cons.mp ha with rfl | ha
        · exact absurd rfl hb
        · rw [ih (List.nodup_cons.mp h).2 ha]

/-- The records that were put in replace those of their names. -/
theorem eq_of_mem_foldl_upsert {bs : List α} (h : (as.map name).Nodup)
    (hb : b ∈ bs.foldl (fun as a => upsert a as) as) :
    b ∈ bs ∨ (b ∈ as ∧ name b ∉ bs.map name) := by
  induction bs generalizing as with
  | nil => exact .inr ⟨hb, List.not_mem_nil⟩
  | cons c rest ih =>
      rcases ih (nodup_upsert h c) hb with hb | ⟨hb, hrest⟩
      · exact .inl (List.mem_cons_of_mem c hb)
      · rcases eq_of_mem_upsert h hb with rfl | ⟨hb, hc⟩
        · exact .inl List.mem_cons_self
        · refine .inr ⟨hb, ?_⟩
          rw [List.map_cons, List.mem_cons, not_or]
          exact ⟨hc, hrest⟩

theorem nodup_foldl_upsert (h : (as.map name).Nodup) (bs : List α) :
    ((bs.foldl (fun as a => upsert a as) as).map name).Nodup := by
  induction bs generalizing as with
  | nil => exact h
  | cons b rest ih => exact ih (nodup_upsert h b)

theorem names_replaceFirst (a : α) (as : List α) : (replaceFirst a as).map name = as.map name := by
  induction as with
  | nil => rfl
  | cons b rest ih =>
      rw [replaceFirst]
      split_ifs with hb
      · rw [List.map_cons, List.map_cons, hb]
      · rw [List.map_cons, List.map_cons, ih]

/-- A list of different names has at most one record of the name that was replaced. -/
theorem eq_of_mem_replaceFirst (h : (as.map name).Nodup) (hb : b ∈ replaceFirst a as) :
    b = a ∨ (b ∈ as ∧ name b ≠ name a) := by
  induction as with
  | nil => cases hb
  | cons c rest ih =>
      obtain ⟨hfresh, hrest⟩ := List.nodup_cons.mp h
      rw [replaceFirst] at hb
      split_ifs at hb with hc
      · rcases List.mem_cons.mp hb with rfl | hb
        · exact .inl rfl
        · refine .inr ⟨List.mem_cons_of_mem c hb, fun heq => hfresh ?_⟩
          rw [hc, ← heq]
          exact List.mem_map_of_mem hb
      · rcases List.mem_cons.mp hb with rfl | hb
        · exact .inr ⟨List.mem_cons_self, hc⟩
        · exact (ih hrest hb).imp_right fun hand => ⟨List.mem_cons_of_mem c hand.1, hand.2⟩

/-! ### Adding what is missing -/

theorem mem_addMissing : b ∈ addMissing as a ↔ b ∈ as ∨ (b = a ∧ name a ∉ as.map name) := by
  unfold addMissing
  by_cases h : name a ∈ as.map name
  · rw [if_pos (by simpa using h)]
    exact ⟨.inl, fun hb => hb.resolve_right fun hand => hand.2 h⟩
  · rw [if_neg (by simpa using h), List.mem_append, List.mem_singleton]
    exact or_congr_right ⟨fun hb => ⟨hb, h⟩, fun hb => hb.1⟩

theorem nodup_addMissing (h : (as.map name).Nodup) (a : α) :
    ((addMissing as a).map name).Nodup := by
  unfold addMissing
  by_cases hmem : name a ∈ as.map name
  · rw [if_pos (by simpa using hmem)]
    exact h
  · rw [if_neg (by simpa using hmem), ← upsert_of_not_mem hmem]
    exact nodup_upsert h a

theorem subset_foldl_addMissing (bs as : List α) : as ⊆ bs.foldl addMissing as := by
  induction bs generalizing as with
  | nil => exact fun a ha => ha
  | cons b rest ih => exact fun a ha => ih _ (mem_addMissing.mpr (.inl ha))

theorem nodup_foldl_addMissing (h : (as.map name).Nodup) (bs : List α) :
    ((bs.foldl addMissing as).map name).Nodup := by
  induction bs generalizing as with
  | nil => exact h
  | cons b rest ih => exact ih (nodup_addMissing h b)

theorem mem_of_mem_foldl_addMissing {bs : List α} (ha : a ∈ bs.foldl addMissing as) :
    a ∈ as ∨ a ∈ bs := by
  induction bs generalizing as with
  | nil => exact .inl ha
  | cons b rest ih =>
      rcases ih ha with ha | ha
      · rcases mem_addMissing.mp ha with ha | ⟨rfl, -⟩
        · exact .inl ha
        · exact .inr List.mem_cons_self
      · exact .inr (List.mem_cons_of_mem b ha)

/-- The names of records that were added are there afterwards. -/
theorem name_mem_foldl_addMissing {bs : List α} (hb : b ∈ bs) :
    name b ∈ (bs.foldl addMissing as).map name := by
  induction bs generalizing as with
  | nil => cases hb
  | cons c rest ih =>
      rcases List.mem_cons.mp hb with rfl | hb
      · have hmem : name b ∈ (addMissing as b).map name := by
          by_cases h : name b ∈ as.map name
          · obtain ⟨a, ha, heq⟩ := List.mem_map.mp h
            exact heq ▸ List.mem_map_of_mem (mem_addMissing.mpr (.inl ha))
          · exact List.mem_map_of_mem (mem_addMissing.mpr (.inr ⟨rfl, h⟩))
        obtain ⟨a, ha, heq⟩ := List.mem_map.mp hmem
        exact heq ▸ List.mem_map_of_mem (subset_foldl_addMissing rest _ ha)
      · exact ih hb

/-! ### Taking a record out -/

/-- In a list of different names the first record of a name is the only one. -/
theorem takeFirst?_eq (h : (as.map name).Nodup) (n : String) :
    takeFirst? n as = (as.find? (name · = n)).map fun a => (a, as.filter (name · ≠ n)) := by
  induction as with
  | nil => rfl
  | cons a rest ih =>
      obtain ⟨hfresh, hrest⟩ := List.nodup_cons.mp h
      rw [takeFirst?]
      split_ifs with ha
      · have hkeep : rest.filter (name · ≠ n) = rest := by
          refine List.filter_eq_self.mpr ?_
          intro b hb
          simp only [decide_eq_true_eq, ne_eq]
          intro heq
          exact hfresh (ha ▸ heq ▸ List.mem_map_of_mem hb)
        rw [List.find?_cons_of_pos (by simp [ha]), List.filter_cons_of_neg (by simp [ha]), hkeep]
        rfl
      · rw [ih hrest, List.find?_cons_of_neg (by simp [ha]), List.filter_cons_of_pos (by simp [ha])]
        cases rest.find? fun a => decide (name a = n) <;> rfl

/-- What was taken out and what is left was there. -/
theorem takeFirst?_eq_some {rest : List α} (h : takeFirst? n as = some (a, rest)) :
    a ∈ as ∧ name a = n ∧ rest.Sublist as := by
  induction as generalizing rest with
  | nil => cases h
  | cons b left ih =>
      rw [takeFirst?] at h
      split_ifs at h with hb
      · cases h
        exact ⟨List.mem_cons_self, hb, List.sublist_cons_self ..⟩
      · obtain ⟨⟨c, rest'⟩, htake, heq⟩ := Option.map_eq_some_iff.mp h
        cases heq
        obtain ⟨ha, hname, hsub⟩ := ih htake
        exact ⟨List.mem_cons_of_mem b ha, hname, hsub.cons_cons b⟩

/-! ### Lists and maps -/

variable {known : String → Option α} {ns : List String}

/-- The names of a list under a map. -/
theorem names_filterMap (hname : ∀ n b, known n = some b → name b = n)
    (hsome : ∀ n ∈ ns, ∃ b, known n = some b) : (ns.filterMap known).map name = ns := by
  induction ns with
  | nil => rfl
  | cons n rest ih =>
      obtain ⟨b, hb⟩ := hsome n (by simp)
      rw [List.filterMap_cons, hb, List.map_cons, hname n b hb,
        ih fun m hm => hsome m (by simp [hm])]

/-- What is found by name in a list under a map is what the map has. -/
theorem find?_filterMap (hname : ∀ n b, known n = some b → name b = n)
    (hsome : ∀ n ∈ ns, ∃ b, known n = some b) (n : String) :
    (ns.filterMap known).find? (name · = n) = if n ∈ ns then known n else none := by
  induction ns with
  | nil => rfl
  | cons m rest ih =>
      obtain ⟨b, hb⟩ := hsome m (by simp)
      have hrest := ih fun m hm => hsome m (by simp [hm])
      rw [List.filterMap_cons, hb]
      dsimp only
      by_cases hm : m = n
      · subst hm
        rw [List.find?_cons_of_pos (by simp [hname m b hb]), if_pos List.mem_cons_self, hb]
      · rw [List.find?_cons_of_neg (by simp [hname m b hb, hm]), hrest]
        by_cases hn : n ∈ rest
        · rw [if_pos hn, if_pos (List.mem_cons_of_mem m hn)]
        · rw [if_neg hn, if_neg fun h => (List.mem_cons.mp h).elim (fun heq => hm heq.symm) hn]

/-- A map and a list under it after one record was put in. -/
theorem filterMap_update (hns : ns.Nodup) (hname : ∀ n b, known n = some b → name b = n)
    (hsome : ∀ n ∈ ns, ∃ b, known n = some b) :
    ns.filterMap (fun n => if name a = n then some a else known n)
      = replaceFirst a (ns.filterMap known) := by
  induction ns with
  | nil => rfl
  | cons n rest ih =>
      obtain ⟨hfresh, hrest⟩ := List.nodup_cons.mp hns
      obtain ⟨b, hb⟩ := hsome n (by simp)
      rw [List.filterMap_cons, List.filterMap_cons, hb]
      dsimp only
      rw [replaceFirst, hname n b hb]
      by_cases ha : name a = n
      · rw [if_pos ha, if_pos ha.symm]
        dsimp only
        refine congrArg (a :: ·) (List.filterMap_congr fun m hm => if_neg ?_)
        exact fun heq => hfresh (ha ▸ heq ▸ hm)
      · rw [if_neg ha, if_neg (fun heq => ha heq.symm)]
        dsimp only
        rw [ih hrest fun m hm => hsome m (by simp [hm])]

/-- A list under a map after a name was taken out of both. -/
theorem filterMap_drop (hname : ∀ n b, known n = some b → name b = n) (n : String) :
    (ns.filter (· ≠ n)).filterMap (fun m => if n = m then none else known m)
      = (ns.filterMap known).filter (name · ≠ n) := by
  induction ns with
  | nil => rfl
  | cons m rest ih =>
      rw [List.filterMap_cons, List.filter_cons]
      by_cases hm : m = n
      · subst hm
        simp only [ne_eq, not_true_eq_false, decide_false, Bool.false_eq_true, if_false]
        rw [ih]
        rcases hknown : known m with _ | b
        · rfl
        · simp [hname m b hknown]
      · have hne : n ≠ m := fun heq => hm heq.symm
        simp only [ne_eq, hm, not_false_eq_true, decide_true, if_true, List.filterMap_cons]
        rw [if_neg hne, ih]
        rcases hknown : known m with _ | b
        · rfl
        · simp [hname m b hknown, hm]

end IdentityStore.Snapshot
