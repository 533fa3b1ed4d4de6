/-
What is gone, and how it may come back.

An update looks for the document first and writes it later, and holds no lock meanwhile.  So
a deletion that comes in between is undone by the write.  That is the only way in which a
document comes back that nobody creates: an update that begins to look after the document
has gone does not find it, and writes nothing.
-/
import IdentityStore.Proofs.Keyed.SideBySide

namespace IdentityStore

instance (keys : KeySpace) (s : MemoryStore) (x : Subject) : Decidable (x.Stored keys s) :=
  inferInstanceAs (Decidable (_ ∧ _))

/-- What an operation removes. -/
def Operation.deletes : Operation → List Subject
  | .deleteRealm name => [.realm name]
  | .delete kind name => [.record kind name]
  | _ => []

namespace Keyed

/-- **What is gone stays away, unless an update had found it before.**  If nobody creates a
subject, and at some point the store has no document of it, then it has none later, unless
an update that had found the document by then has written it since. -/
theorem absent_unless_updated (keys : KeySpace) (order : ScanOrder) (s : MemoryStore)
    (ops : List Operation) (events later : List Crew.Event) (x : Subject)
    (hcreates : ∀ op ∈ ops, x ∉ op.creates)
    (hgone : ¬ x.Stored keys (crewAfter keys order s ops events).store) :
    ¬ x.Stored keys (crewAfter keys order s ops (events ++ later)).store ∨
      ∃ i op found written text, ops[i]? = some op ∧ x ∈ op.updates ∧
        (i, found) ∈ logAfter keys order s ops events ∧
        (found.request = .get (x.key keys) ∨ found.request = .has (x.key keys)) ∧
        x.Stored keys found.before ∧
        (i, written) ∈ (crewAfter keys order s ops events).log (MemoryStore.answerIn order) later ∧
        written.request = .set (x.key keys) text ∧ written.reply.isOk = true := by
  by_cases hback : x.Stored keys (crewAfter keys order s ops (events ++ later)).store
  swap
  · exact .inl hback
  right
  -- the first exchange after which the document is there again
  obtain ⟨l₁, i, written, l₂, hlater, hbefore, hafter, habsent⟩ :=
    Log.Passes.first (P := fun s => x.Stored keys s) hback
      (passes_later keys order s ops events later) hgone
  have hlog : logAfter keys order s ops (events ++ later)
      = (logAfter keys order s ops events ++ l₁) ++ (i, written) :: l₂ := by
    rw [logAfter_append, hlater, List.append_assoc]
  obtain ⟨op, hop, hanswered, held, hconduct⟩ := conduct_of_log hlog
  obtain ⟨⟨text, htext⟩, hok, hcreated | ⟨hupdates, found, hfound, hlooked, hstored⟩⟩ :=
    stored_by hconduct hanswered hbefore hafter
  · exact absurd hcreated (hcreates op (List.mem_of_getElem? hop))
  -- it was found while it was there, and so before it had gone
  rcases List.mem_append.mp (Log.mem_own.mp hfound) with hfound | hfound
  · refine ⟨i, op, found, written, text, hop, hupdates, hfound, hlooked, hstored, ?_, htext, hok⟩
    rw [hlater]
    exact List.mem_append_right _ List.mem_cons_self
  · exact absurd hstored (habsent _ hfound)

/-! ### A deletion that is undone -/

/-- A client, in words. -/
def web : String :=
  "\x7b\"name\":\"web\",\"id\":\"00000000-0000-0000-0000-000000000001\"\x7d"

/-- A store that holds a client and no realm. -/
def webStore : MemoryStore :=
  MemoryStore.empty.put (KeySpace.default.record .client "web") (.text web)

/-- A client is updated and deleted side by side. -/
def updateAndDelete : List Operation :=
  [.update .client "web" (Utf8.ofString web), .delete .client "web"]

/-- The update has found the client, and then the deletion goes from its beginning to its
end. -/
def deletedMeanwhile : List Crew.Event := [.step 0, .step 1, .step 1, .step 1]

theorem absent_unless_updated_web :
    let x := Subject.record .client "web"
    (∀ op ∈ updateAndDelete, x ∉ op.creates) ∧
      ¬ x.Stored .default
        (crewAfter .default .rising webStore updateAndDelete deletedMeanwhile).store ∧
      (¬ x.Stored .default (crewAfter .default .rising webStore updateAndDelete
          (deletedMeanwhile ++ [.step 0])).store ∨
        ∃ i op found written text, updateAndDelete[i]? = some op ∧ x ∈ op.updates ∧
          (i, found) ∈ logAfter .default .rising webStore updateAndDelete deletedMeanwhile ∧
          (found.request = .get (x.key .default) ∨ found.request = .has (x.key .default)) ∧
          x.Stored .default found.before ∧
          (i, written) ∈ (crewAfter .default .rising webStore updateAndDelete
            deletedMeanwhile).log (MemoryStore.answerIn .rising) [.step 0] ∧
          written.request = .set (x.key .default) text ∧ written.reply.isOk = true) := by
  have hcreates : ∀ op ∈ updateAndDelete, Subject.record .client "web" ∉ op.creates := by
    decide +kernel
  have hgone : ¬ Subject.Stored .default
      (crewAfter .default .rising webStore updateAndDelete deletedMeanwhile).store
      (.record .client "web") := by decide +kernel
  exact ⟨hcreates, hgone, absent_unless_updated .default .rising webStore updateAndDelete
    deletedMeanwhile [.step 0] (.record .client "web") hcreates hgone⟩

/-- Updates and deletions of one subject are enough for a document to be there again after a
deletion has removed it. -/
theorem deleted_client_comes_back :
    ¬ ∀ (s : MemoryStore) (ops : List Operation) (events later : List Crew.Event) (x : Subject),
      (∀ op ∈ ops, x ∈ op.updates ∨ x ∈ op.deletes) →
      (∃ entry ∈ logAfter .default .rising s ops events, (∃ op ∈ ops[entry.1]?, x ∈ op.deletes) ∧
        x.Stored .default entry.2.before ∧ ¬ x.Stored .default entry.2.after) →
      ¬ x.Stored .default (crewAfter .default .rising s ops events).store →
      ¬ x.Stored .default (crewAfter .default .rising s ops (events ++ later)).store := by
  intro h
  have habsent := h webStore updateAndDelete deletedMeanwhile [.step 0] (.record .client "web")
    (by decide +kernel) (by decide +kernel) (by decide +kernel)
  exact absurd habsent (by decide +kernel)

end Keyed

end IdentityStore
