/-
Every list belongs to a realm.

A list is written under its lock, either where there was a list already or after the document
of its realm was found under the lock.  It goes in one call with the document, and that call
needs the locks of both lists of the realm.  So nobody but who creates a realm ever leaves a
list without a document: an addition that looked for the realm before it was deleted looks
again once it holds the lock, and a deletion of a member that had found the list before finds
nothing in it to take out.
-/
import IdentityStore.Proofs.Keyed.Dangling

namespace IdentityStore

namespace Subject

variable {keys : KeySpace} {s : MemoryStore} {x : Subject}

/-- No document goes when something is written. -/
theorem Stored.put (h : x.Stored keys s) (key : String) (entry : Entry) :
    x.Stored keys (s.put key entry) := by
  refine ⟨h.1, ?_⟩
  rw [MemoryStore.getElem?_put]
  split_ifs
  · rfl
  · exact h.2

/-- Only its own key takes a document away. -/
theorem Stored.drop (h : x.Stored keys s) {ks : List String} (hks : x.key keys ∉ ks) :
    x.Stored keys (s.drop ks) := by
  refine ⟨h.1, ?_⟩
  rw [MemoryStore.getElem?_drop, if_neg hks]
  exact h.2

end Subject

namespace Operation

/-- Holds unless the operation creates a realm. -/
def createsNoRealm : Operation → Bool
  | .createRealm _ => false
  | _ => true

theorem realm_not_mem_creates {op : Operation} (h : op.createsNoRealm = true) (r : String) :
    .realm r ∉ op.creates := by
  cases op with
  | createRealm payload => cases h
  | create kind payload =>
      intro hmem
      dsimp only [creates] at hmem
      split at hmem
      · cases List.mem_singleton.mp hmem
      · cases hmem
  | _ => exact List.not_mem_nil

end Operation

namespace Keyed

variable {keys : KeySpace} {order : ScanOrder} {s : MemoryStore} {op : Operation} {kind : Kind}
  {r : String} {held : List String} {past : List (Exchange MemoryStore)} {ops : List Operation}
  {events : List Crew.Event} {x : Exchange MemoryStore}

variable (keys) in
/-- Every list in the store belongs to a realm that has a document. -/
def Belonging (s : MemoryStore) : Prop :=
  ∀ kind r, (s.entries[keys.members kind r]?).isSome = true → Subject.Stored keys s (.realm r)

/-- A request that writes no list, and removes no document of a realm, leaves every list with
its realm. -/
theorem Belonging.put (h : Belonging keys s) {key : String} (entry : Entry)
    (hkey : ∀ kind r, key ≠ keys.members kind r) : Belonging keys (s.put key entry) := by
  intro kind r hlist
  rw [MemoryStore.getElem?_put, if_neg (hkey kind r)] at hlist
  exact (h kind r hlist).put _ _

/-- A list may be written where its realm is. -/
theorem Belonging.putList (h : Belonging keys s) (hr : Subject.Stored keys s (.realm r))
    (entry : Entry) : Belonging keys (s.put (keys.members kind r) entry) := by
  intro kind' r' hlist
  rw [MemoryStore.getElem?_put] at hlist
  split_ifs at hlist with hkey
  · obtain ⟨-, rfl⟩ := keys.members_inj hkey
    exact hr.put _ _
  · exact (h kind' r' hlist).put _ _

/-- A realm goes together with its lists. -/
theorem Belonging.dropRealm (h : Belonging keys s) (r : String) :
    Belonging keys (s.drop (realmKeys keys r)) := by
  intro kind r' hlist
  rw [MemoryStore.getElem?_drop] at hlist
  split_ifs at hlist with hkey
  · cases hlist
  have hr' := h kind r' hlist
  refine hr'.drop fun hmem => hkey ?_
  simp only [List.mem_cons, List.not_mem_nil, or_false] at hmem
  rcases hmem with heq | heq | heq
  · obtain rfl := keys.realm_inj heq
    cases kind <;> simp
  · exact absurd heq (Subject.key_ne_members hr'.1 _ _)
  · exact absurd heq (Subject.key_ne_members hr'.1 _ _)

theorem Belonging.dropRecord (h : Belonging keys s) (kind : Kind) (n : String) :
    Belonging keys (s.drop [keys.record kind n]) := by
  intro kind' r hlist
  rw [MemoryStore.getElem?_drop] at hlist
  split_ifs at hlist
  · cases hlist
  exact (h kind' r hlist).drop fun hmem => keys.record_ne_realm (List.mem_singleton.mp hmem).symm

/-- Where a list may be written although its realm is not created, the realm is there. -/
theorem Grounded.stored (h : Grounded keys op s kind r) (hs : Belonging keys s)
    (hop : op.createsNoRealm = true) : Subject.Stored keys s (.realm r) := by
  rcases h with hlist | hrealm | hcreated
  · exact hs kind r hlist
  · exact hrealm
  · exact absurd hcreated (Operation.realm_not_mem_creates hop r)

/-- No exchange of an operation that creates no realm leaves a list without its realm. -/
theorem belonging_step (h : Conduct keys op held past x.before x.request)
    (hx : x.Answered (MemoryStore.answerIn order)) (hop : op.createsNoRealm = true)
    (hbefore : Belonging keys x.before) : Belonging keys x.after := by
  obtain ⟨request, reply, before, after⟩ := x
  rcases answered_cases hx with ⟨-, hsame⟩ | ⟨-, hon, hrun⟩
  · exact hsame ▸ hbefore
  dsimp only at h hon hrun hbefore ⊢
  subst hrun
  cases h with
  | look h =>
      rw [MemoryStore.answerIn_of_isRead h]
      exact hbefore
  | create hnamed =>
      rw [MemoryStore.after_set, if_pos hon]
      exact hbefore.put _ fun kind r => Subject.key_ne_members hnamed kind r
  | update _ hfound =>
      obtain ⟨y, -, -, hnamed, -⟩ := hfound
      rw [MemoryStore.after_set, if_pos hon]
      exact hbefore.put _ fun kind r => Subject.key_ne_members hnamed kind r
  | change _ _ _ hground =>
      rw [Membership.toEntries, MemoryStore.after_setList, if_pos hon]
      exact hbefore.putList (hground.stored hbefore hop) _
  | delete =>
      rw [MemoryStore.after_delete, if_pos hon]
      exact hbefore.dropRecord _ _
  | deleteRealm =>
      rw [MemoryStore.after_delete, if_pos hon]
      exact hbefore.dropRealm _

/-- Where every list has its realm, whoever writes a list and creates no realm does so while
the realm is there. -/
theorem stored_of_setList {entries : List String}
    (h : Conduct keys op held past s (.setList (keys.members kind r) entries))
    (hop : op.createsNoRealm = true) (hs : Belonging keys s) :
    Subject.Stored keys s (.realm r) := by
  generalize hrequest : Request.setList (keys.members kind r) entries = request at h
  cases h with
  | look h =>
      subst hrequest
      cases h
  | change _ _ _ hground =>
      obtain ⟨hkey, -⟩ := Request.setList.inj hrequest
      obtain ⟨rfl, rfl⟩ := keys.members_inj hkey
      exact hground.stored hs hop
  | _ => cases hrequest

/-- **A deleted realm leaves no list behind.**  Where every list belongs to a realm that has
a document, and nobody creates a realm, that remains so at every point, in whatever order
calls come, and wherever calls fail or operations are given up; and whoever writes a list
does so while the document of its realm is there. -/
theorem lists_belong_to_realms (keys : KeySpace) (order : ScanOrder) (s : MemoryStore)
    (ops : List Operation) (events : List Crew.Event)
    (hops : ∀ op ∈ ops, op.createsNoRealm = true) (hs : Belonging keys s) :
    Belonging keys (crewAfter keys order s ops events).store ∧
      ∀ entry ∈ logAfter keys order s ops events, ∀ kind r entries,
        entry.2.request = .setList (keys.members kind r) entries →
        Subject.Stored keys entry.2.before (.realm r) := by
  have hstep : ∀ entry ∈ logAfter keys order s ops events,
      Belonging keys entry.2.before → Belonging keys entry.2.after := by
    intro entry hentry hbefore
    obtain ⟨l₁, l₂, hlog⟩ := List.append_of_mem hentry
    obtain ⟨op, hop, hanswered, held, hconduct⟩ := conduct_of_log hlog
    exact belonging_step hconduct hanswered (hops op (List.mem_of_getElem? hop)) hbefore
  obtain ⟨hafter, hall⟩ := (abiding_after s ops events).passes.forall hstep hs
  refine ⟨hafter, fun entry hentry kind r entries hrequest => ?_⟩
  obtain ⟨l₁, l₂, hlog⟩ := List.append_of_mem hentry
  obtain ⟨op, hop, -, held, hconduct⟩ := conduct_of_log hlog
  rw [hrequest] at hconduct
  exact stored_of_setList hconduct (hops op (List.mem_of_getElem? hop)) (hall entry hentry)

/-- A store with a client, a realm and the list of its clients, which is empty. -/
def listedStore : MemoryStore :=
  acmeStore.put (KeySpace.default.members .client "acme") (.list (Membership.toEntries []))

/-- A client is added to a realm, and the realm is deleted. -/
def addAndDeleteRealm : List Operation := [.add .client "acme" "web", .deleteRealm "acme"]

/-- The addition has found the realm and read the client, then the deletion goes from its
beginning to its end, and then the addition does. -/
def deletedBeforeLock : List Crew.Event := [0, 0, 1, 1, 1, 1, 1, 1, 0, 0, 0].map .step

theorem belonging_listedStore : Belonging .default listedStore := by
  have hacme : Subject.Stored .default acmeStore (.realm "acme") := by decide +kernel
  refine Belonging.putList (fun kind r hlist => ?_) hacme _
  rw [acmeStore, MemoryStore.getElem?_put, if_neg (KeySpace.realm_ne_members _ (by decide)),
    webStore, MemoryStore.getElem?_put, if_neg (KeySpace.record_ne_members _)] at hlist
  cases hlist

theorem lists_belong_to_realms_acme :
    (∀ op ∈ addAndDeleteRealm, op.createsNoRealm = true) ∧ Belonging .default listedStore ∧
      Belonging .default
        (crewAfter .default .rising listedStore addAndDeleteRealm deletedBeforeLock).store ∧
      ∀ entry ∈ logAfter .default .rising listedStore addAndDeleteRealm deletedBeforeLock,
        ∀ kind r entries, entry.2.request = .setList (KeySpace.default.members kind r) entries →
          Subject.Stored .default entry.2.before (.realm r) := by
  have hops : ∀ op ∈ addAndDeleteRealm, op.createsNoRealm = true := by decide
  exact ⟨hops, belonging_listedStore, lists_belong_to_realms .default .rising listedStore
    addAndDeleteRealm deletedBeforeLock hops belonging_listedStore⟩

end Keyed

end IdentityStore
