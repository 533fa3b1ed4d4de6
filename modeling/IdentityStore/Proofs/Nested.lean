/-
Records inside of documents, and on their own.

A snapshot holds realms, clients and users, and a realm holds clients and users.  What is read
there is checked there: the same rules are asked of a client in a snapshot, of one in a realm of a
snapshot, and of one that is the whole payload.  A user keeps its rules from the moment it is read.
So each of them is accepted again when its text comes as a payload of its own, for which there are
more levels left than where it was.

Realms are the exception.  A realm has to have a name, but nobody asks that of the realms of a
snapshot: `nameless_realm_in_snapshot`.
-/
import IdentityStore.Proofs.Documents
import IdentityStore.Proofs.Snapshot.Turn

namespace IdentityStore

variable {payload : List UInt8} {r : Realm} {s : Snapshot} {kind : Kind}

/-! ### What is read of a document -/

theorem checked_of_read {α : Type} {read : Json.Reader α} {validate : α → Except Flaw Unit}
    {a : α} (h : Json.readDocument read payload = .ok a) :
    checked read validate payload = ((validate a).mapError .flawed).map fun _ => a := by
  unfold checked
  rw [h]
  simp only [Except.mapError, bind, Except.bind]
  rcases validate a with flaw | _ <;> rfl

/-- Clients that are good one by one are good together. -/
theorem forM_of_valid {cs : List Client} (h : ∀ c ∈ cs, c.validate = .ok ()) :
    cs.forM Client.validate = .ok () := by
  induction cs with
  | nil => rfl
  | cons c cs ih =>
      have hrest := ih fun b hb => h b (List.mem_cons_of_mem c hb)
      show (c.validate >>= fun _ => cs.forM Client.validate) = .ok ()
      rw [h c List.mem_cons_self, hrest]
      rfl

namespace Realm

theorem Fits.mono {levels levels' : Nat} (h : r.Fits levels) (hle : levels ≤ levels') :
    r.Fits levels' :=
  ⟨fun c hc => (h.clients c hc).mono hle, fun u hu => (h.users u hu).mono (by omega)⟩

/-- The rules ask for a name if the clients are good. -/
theorem validate_of_clients (h : ∀ c ∈ r.clients, c.validate = .ok ()) :
    r.validate = if r.name = "" then .error (.missing "name") else .ok () := by
  unfold validate
  rw [forM_of_valid h]
  split_ifs <;> rfl

/-- The text of a realm is read, and then the rules are asked. -/
theorem ofPayload_write_of_fits (h : r.Fits 123) :
    ofPayload (Utf8.ofString r.write) = (r.validate.mapError .flawed).map fun _ => r.reread := by
  rw [← validate_reread]
  exact checked_of_read (reads_write h).readDocument

end Realm

/-! ### Records of a snapshot -/

namespace Snapshot

theorem fits_realm (h : ofPayload payload = .ok s) (hr : r ∈ s.realms) : r.Fits 123 :=
  ((fits_of_ofPayload h).realms r hr).mono (by decide)

/-- Wherever a record is in a snapshot, it is one that a payload may describe. -/
theorem sound_of_mem_copies (h : ofPayload payload = .ok s) :
    ∀ a ∈ s.copies kind.Record, kind.Sound a := by
  have hfits := fits_of_ofPayload h
  intro a ha
  cases kind with
  | client =>
      refine ⟨Realm.valid_of_forM (checked_eq_ok_iff.mp h).2 a ha, ?_⟩
      rcases mem_copies.mp ha with ha | ⟨r, hr, ha⟩
      · exact (hfits.clients a ha).mono (by decide)
      · exact ((hfits.realms r hr).clients a ha).mono (by decide)
  | user =>
      rcases mem_copies.mp ha with ha | ⟨r, hr, ha⟩
      · exact (hfits.users a ha).mono (by decide)
      · exact ((hfits.realms r hr).users a ha).mono (by decide)

end Snapshot

theorem Realm.isExact_of_mem (h : r.isExact = true) :
    ∀ a ∈ Principal.ofRealm (α := kind.Record) r, kind.isExact a = true := by
  obtain ⟨hclients, husers⟩ := Bool.and_eq_true_iff.mp h
  cases kind with
  | client => exact List.all_eq_true.mp hclients
  | user => exact List.all_eq_true.mp husers

theorem Snapshot.isExact_of_mem (h : s.isExact = true) :
    ∀ a ∈ s.copies kind.Record, kind.isExact a = true := by
  obtain ⟨h, husers⟩ := Bool.and_eq_true_iff.mp h
  obtain ⟨hrealms, hclients⟩ := Bool.and_eq_true_iff.mp h
  intro a ha
  rcases mem_copies.mp ha with ha | ⟨r, hr, ha⟩
  · cases kind with
    | client => exact List.all_eq_true.mp hclients a ha
    | user => exact List.all_eq_true.mp husers a ha
  · exact Realm.isExact_of_mem (List.all_eq_true.mp hrealms r hr) a ha

theorem Kind.ofPayload_write_of_exact {a : kind.Record} (h : kind.Sound a)
    (hexact : kind.isExact a = true) :
    Principal.ofPayload (Utf8.ofString (Principal.write a)) = .ok a := by
  rw [Kind.ofPayload_write h, Kind.reread_eq_self hexact]

/-! ### Every level -/

/-- **What is accepted inside of a document is accepted on its own.**  If a snapshot is accepted
and has no floating numbers, then so is the text of every client and user in it, in its tables and
in its realms, and that of every realm that has a name; a realm without one is refused for this.
The clients and users of a realm that is accepted are accepted as well. -/
theorem nested_records_are_accepted (payload : List UInt8) :
    (∀ s, Snapshot.ofPayload payload = .ok s → s.isExact = true →
      (∀ r ∈ s.realms, Realm.ofPayload (Utf8.ofString r.write)
        = if r.name = "" then .error (.flawed (.missing "name")) else .ok r) ∧
      ∀ kind : Kind, ∀ a ∈ s.copies kind.Record,
        Principal.ofPayload (Utf8.ofString (Principal.write a)) = .ok a) ∧
    (∀ r, Realm.ofPayload payload = .ok r → r.isExact = true →
      ∀ kind : Kind, ∀ a ∈ Principal.ofRealm (α := kind.Record) r,
        Principal.ofPayload (Utf8.ofString (Principal.write a)) = .ok a) := by
  refine ⟨fun s h hexact => ⟨fun r hr => ?_, fun kind a ha => ?_⟩, fun r h hexact kind a ha => ?_⟩
  · have hclients : ∀ c ∈ r.clients, c.validate = .ok () := fun c hc =>
      (@Snapshot.sound_of_mem_copies payload s .client h c
        (Snapshot.mem_copies.mpr (.inr ⟨r, hr, hc⟩))).valid
    obtain ⟨hrealms, -⟩ := Bool.and_eq_true_iff.mp (Bool.and_eq_true_iff.mp hexact).1
    rw [Realm.ofPayload_write_of_fits (Snapshot.fits_realm h hr),
      Realm.validate_of_clients hclients,
      Realm.reread_eq_self (List.all_eq_true.mp hrealms r hr)]
    split_ifs <;> rfl
  · exact Kind.ofPayload_write_of_exact (Snapshot.sound_of_mem_copies h a ha)
      (Snapshot.isExact_of_mem hexact a ha)
  · have hsound := Realm.sound_of_ofPayload h
    refine Kind.ofPayload_write_of_exact ?_ (Realm.isExact_of_mem hexact a ha)
    cases kind with
    | client => exact hsound.clients a ha
    | user => exact hsound.users a ha

/-- A realm with a client. -/
def staffedRealmText : String :=
  "\x7b\"name\":\"acme\",\"clients\":[" ++ webClientText ++ "]\x7d"

/-- A snapshot with that realm. -/
def staffedSnapshotText : String := "\x7b\"Realms\":[" ++ staffedRealmText ++ "]\x7d"

theorem nested_records_are_accepted_acme :
    (∃ s, Snapshot.ofPayload (Utf8.ofString staffedSnapshotText) = .ok s ∧ s.isExact = true ∧
      s.copies Client ≠ [] ∧
      ∀ c ∈ s.copies Client, Client.ofPayload (Utf8.ofString c.write) = .ok c) ∧
    ∃ r, Realm.ofPayload (Utf8.ofString staffedRealmText) = .ok r ∧ r.isExact = true ∧
      r.clients ≠ [] ∧ ∀ c ∈ r.clients, Client.ofPayload (Utf8.ofString c.write) = .ok c := by
  obtain ⟨s, hs, hboth⟩ : ∃ s, Snapshot.ofPayload (Utf8.ofString staffedSnapshotText) = .ok s ∧
      (s.isExact && decide (s.copies Client ≠ [])) = true := exists_of_any (by decide +kernel)
  obtain ⟨r, hr, hrboth⟩ : ∃ r, Realm.ofPayload (Utf8.ofString staffedRealmText) = .ok r ∧
      (r.isExact && decide (r.clients ≠ [])) = true := exists_of_any (by decide +kernel)
  obtain ⟨hexact, hsome⟩ := Bool.and_eq_true_iff.mp hboth
  obtain ⟨hrexact, hrsome⟩ := Bool.and_eq_true_iff.mp hrboth
  obtain ⟨hsnapshots, -⟩ := nested_records_are_accepted (Utf8.ofString staffedSnapshotText)
  obtain ⟨-, hrealms⟩ := nested_records_are_accepted (Utf8.ofString staffedRealmText)
  exact ⟨⟨s, hs, hexact, of_decide_eq_true hsome, (hsnapshots s hs hexact).2 .client⟩,
    r, hr, hrexact, of_decide_eq_true hrsome, hrealms r hr hrexact .client⟩

/-- A snapshot may have a realm without a name, which is refused on its own. -/
theorem nameless_realm_in_snapshot :
    ¬ ∀ payload s, Snapshot.ofPayload payload = .ok s → s.isExact = true →
      ∀ r ∈ s.realms, Realm.ofPayload (Utf8.ofString r.write) = .ok r := by
  intro h
  let nameless : Realm := .empty "" 0 0
  have hs : Snapshot.ofPayload (Utf8.ofString "\x7b\"realms\":[\x7b\"name\":\"\"\x7d]\x7d")
      = .ok { realms := [nameless] } := by decide +kernel
  have haccepted := h _ _ hs rfl nameless (List.mem_singleton_self nameless)
  have hrefused : Realm.ofPayload (Utf8.ofString nameless.write)
      = .error (.flawed (.missing "name")) := by decide +kernel
  rw [hrefused] at haccepted
  cases haccepted

end IdentityStore
