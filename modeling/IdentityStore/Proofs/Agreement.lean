/-
A keyed store and a snapshot cannot be told apart.

One keeps every record once and joins realms with their members by lists of names; the other
holds a copy of a record for every realm that lists it.  What they have in common is the
directory that one represents and the other mirrors: `Coupled`.  Every operation that is
comparable is answered alike by both and leaves them coupled, so a whole history is:
`backends_agree`.
-/
import IdentityStore.Proofs.Keyed.Refinement
import IdentityStore.Proofs.Snapshot.Refinement

namespace IdentityStore

variable {keys : KeySpace} {order : ScanOrder} {s : MemoryStore}
  {repository : SnapshotRepository} {d : Directory}

/-! ### Agreement -/

/-- How the answers to an operation agree, that of a keyed store first. -/
inductive Agree (t : Snapshot) (op : Operation) :
    Except StorageError Answer → Except StorageError Answer → Prop
  /-- They are the same, as far as they are compared. -/
  | same {x y : Except StorageError Answer} (h : x.map op.view = y.map op.view) : Agree t op x y
  /-- A new member and its realm are both unknown, and each answer misses one of them. -/
  | unknown {kind : Kind} {r n : String} (hop : op = .add kind r n) (realm : t.realm? r = none)
      (record : t.find? kind.Record n = none) :
      Agree t op (.error (.notFound "Realm" r)) (.error (.notFound kind.entity n))

/-- Each operation of a history is answered alike by a keyed store and by a snapshot. -/
def AgreeThroughout (keys : KeySpace) (order : ScanOrder) :
    MemoryStore → SnapshotRepository → List Operation → Prop
  | _, _, [] => True
  | s, repository, op :: rest =>
    Agree repository.snapshot op (Keyed.performIn keys order s op).1 (repository.perform op).1 ∧
      AgreeThroughout keys order (Keyed.performIn keys order s op).2 (repository.perform op).2 rest

/-- Each operation of a history is comparable when it comes. -/
def SnapshotRepository.Comparable : SnapshotRepository → List Operation → Prop
  | _, [] => True
  | repository, op :: rest =>
    repository.snapshot.Comparable op ∧ Comparable (repository.perform op).2 rest

instance SnapshotRepository.decidableComparable :
    (repository : SnapshotRepository) → (ops : List Operation) →
      Decidable (repository.Comparable ops)
  | _, [] => isTrue trivial
  | repository, op :: rest =>
    have := decidableComparable (repository.perform op).2 rest
    inferInstanceAs (Decidable (_ ∧ _))

/-! ### Both hold one directory -/

/-- The store and the snapshot hold the same directory. -/
structure Coupled (keys : KeySpace) (s : MemoryStore) (t : Snapshot) (d : Directory) : Prop where
  represents : Keyed.Represents keys s d
  mirrors : Mirrors t d

theorem coupled_empty : Coupled keys .empty {} .empty where
  represents := Keyed.represents_empty
  mirrors := mirrors_empty

/-- A comparable operation that is not about unknown names alone is answered alike, and
leaves the store and the snapshot coupled. -/
theorem Coupled.step_same (h : Coupled keys s repository.snapshot d) {op : Operation}
    (hfits : repository.snapshot.Comparable op)
    (hknown : ∀ kind r n, op = .add kind r n →
      d.tenants[r]? ≠ none ∨ (d.records kind)[n]? ≠ none) :
    (Keyed.performIn keys order s op).1.map op.view = (repository.perform op).1.map op.view ∧
      ∃ d', Coupled keys (Keyed.performIn keys order s op).2
        (repository.perform op).2.snapshot d' := by
  obtain ⟨hanswer, hrepresents⟩ := Keyed.represents_step h.represents op
  have hfollows := h.mirrors.follows_perform h.represents.wellFormed hfits hknown
  rw [Directory.step_reread hfits.isExact, Directory.step] at hanswer hrepresents
  rw [hanswer, SnapshotRepository.perform]
  -- only what the directory and the snapshot give back counts from here on
  generalize repository.snapshot.perform op = x at hfollows ⊢
  generalize d.perform (fun _ a => a) op = y at hfollows hrepresents ⊢
  cases hfollows with
  | ok same mirrors => exact ⟨congrArg Except.ok same.symm, _, hrepresents, mirrors⟩
  | error e => exact ⟨rfl, d, hrepresents, h.mirrors⟩

/-- Where realm and record are both unknown, each answer misses one of them and nothing
changes. -/
theorem Coupled.step_unknown (h : Coupled keys s repository.snapshot d) {kind : Kind}
    {r n : String} (hrealm : d.tenants[r]? = none) (hrecord : (d.records kind)[n]? = none) :
    Agree repository.snapshot (.add kind r n) (Keyed.performIn keys order s (.add kind r n)).1
        (repository.perform (.add kind r n)).1 ∧
      Coupled keys (Keyed.performIn keys order s (.add kind r n)).2
        (repository.perform (.add kind r n)).2.snapshot d := by
  have hwell := h.represents.wellFormed
  obtain ⟨hanswer, hrepresents⟩ := Keyed.represents_step h.represents (.add kind r n)
  have hmissed : d.perform Kind.reread (.add kind r n) = .error (.notFound "Realm" r) := by
    rw [Directory.perform, Directory.add, Directory.tenant, hrealm]
    rfl
  have hmissed' : repository.snapshot.perform (.add kind r n)
      = .error (.notFound kind.entity n) := by
    rw [Snapshot.perform, Snapshot.add, h.mirrors.get_eq hwell, Directory.record, hrecord]
    rfl
  rw [Directory.step, hmissed] at hanswer hrepresents
  rw [hanswer, SnapshotRepository.perform, hmissed']
  refine ⟨.unknown rfl ?_ ?_, hrepresents, h.mirrors⟩
  · rw [h.mirrors.realm, hrealm]
    rfl
  · rw [h.mirrors.find?_eq hwell, hrecord]

/-- Every comparable operation is answered alike and leaves store and snapshot coupled. -/
theorem Coupled.step (h : Coupled keys s repository.snapshot d) {op : Operation}
    (hfits : repository.snapshot.Comparable op) :
    Agree repository.snapshot op (Keyed.performIn keys order s op).1 (repository.perform op).1 ∧
      ∃ d', Coupled keys (Keyed.performIn keys order s op).2
        (repository.perform op).2.snapshot d' := by
  by_cases hunknown : ∃ kind r n, op = .add kind r n ∧ d.tenants[r]? = none ∧
    (d.records kind)[n]? = none
  · obtain ⟨kind, r, n, rfl, hrealm, hrecord⟩ := hunknown
    obtain ⟨hagree, hcoupled⟩ := h.step_unknown hrealm hrecord
    exact ⟨hagree, d, hcoupled⟩
  · obtain ⟨hsame, hcoupled⟩ := h.step_same hfits fun kind r n hop => by
      by_contra hnone
      rw [not_or, not_not, not_not] at hnone
      exact hunknown ⟨kind, r, n, hop, hnone⟩
    exact ⟨.same hsame, hcoupled⟩

/-! ### Histories -/

theorem Coupled.agree (h : Coupled keys s repository.snapshot d) {ops : List Operation}
    (hfits : repository.Comparable ops) : AgreeThroughout keys order s repository ops := by
  induction ops generalizing s repository d with
  | nil => trivial
  | cons op rest ih =>
      obtain ⟨hop, hrest⟩ := hfits
      obtain ⟨hagree, d', hcoupled⟩ := h.step hop
      exact ⟨hagree, ih hcoupled hrest⟩

/-- **Both backends implement one contract.**  Whatever comparable operations come one after
the other, a store that had no keys and a snapshot that had no records answer each of them
alike, in whatever order the store lists its keys. -/
theorem backends_agree (keys : KeySpace) (order : ScanOrder) (ops : List Operation)
    (hfits : SnapshotRepository.Comparable { snapshot := {} } ops) :
    AgreeThroughout keys order .empty { snapshot := {} } ops :=
  coupled_empty.agree hfits

/-- A realm with a client gets a user as well, and then one that nobody knows. -/
def visit : List Operation := Keyed.acme ++
  [.create .user (Utf8.ofString ("\x7b\"info\":\x7b\"preferred_username\":\"ann\"," ++
      "\"sub\":\"00000000-0000-0000-0000-000000000002\"\x7d\x7d")),
    .add .user "acme" "ann", .getRealmWithMembers "acme", .add .user "nowhere" "nobody"]

theorem agree_visit : SnapshotRepository.Comparable { snapshot := {} } visit ∧
    AgreeThroughout .default .rising .empty { snapshot := {} } visit := by
  have hfits : SnapshotRepository.Comparable { snapshot := {} } visit := by decide +kernel
  exact ⟨hfits, backends_agree .default .rising visit hfits⟩

end IdentityStore
