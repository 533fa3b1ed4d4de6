/-
Whole documents are read back.

A snapshot with all that a server knows is written as an object of its fields, and is read back
as records are: each field because its kind of value is.  A payload may give fields under other
names, leave some out, or be a list of them, but the levels that it uses up are those that its
written form uses up, so that what could be read once can be read again.

The written form has one name for every field.  To a reader of any document it is the object that
`asDocument` describes.
-/
import IdentityStore.Proofs.Config.Document
import IdentityStore.Proofs.Principal
import IdentityStore.Snapshot

namespace IdentityStore

open Json (Value Reader Reads Yields reads_field reads_text)

/-! ### Fields of two names -/

namespace Json

variable {δ β : Type} {name : String} {get : δ → Option β} {set : β → δ → δ}
  {other : Option String} {levels : Nat}

/-- What is read into a field is kept, whichever name it was given by. -/
theorem reads_named (read : Nat → Reader β) {w : String} {b : β} (h : Reads (read levels) w b)
    (d : δ) :
    Reads (Field.read { Field.of name get set read with otherName := other } levels d) w
      (set b d) := by
  have hfield : Reads ((Field.of name get set read).read levels d) w (set b d) :=
    reads_field read h d
  exact hfield

theorem yields_named {read : Nat → Reader β} {P : δ → Prop} {Q : β → Prop} {d : δ}
    (hread : Yields (read levels) Q) (hset : ∀ b, Q b → P (set b d)) :
    Yields (Field.read { Field.of name get set read with otherName := other } levels d) P := by
  have hfield : Yields ((Field.of name get set read).read levels d) P := yields_field hread hset
  exact hfield

end Json

open Json (reads_named yields_named)

/-! ### Snapshots -/

namespace Snapshot

/-- What is known of the records of a draft. -/
structure Draft.Fits (levels : Nat) (d : Draft) : Prop where
  realms : ∀ rs, d.realms = some rs → ∀ r ∈ rs, r.Fits levels
  clients : ∀ cs, d.clients = some cs → ∀ c ∈ cs, c.Fits (levels + 2)
  users : ∀ us, d.users = some us → ∀ u ∈ us, u.document.Fits (levels + 4)

/-- Holds for what is read of a snapshot with some levels left. -/
structure Fits (levels : Nat) (s : Snapshot) : Prop where
  realms : ∀ r ∈ s.realms, r.Fits levels
  clients : ∀ c ∈ s.clients, c.Fits (levels + 2)
  users : ∀ u ∈ s.users, u.document.Fits (levels + 4)

theorem yields_read (levels : Nat) : Yields (read (levels + 6)) (Fits levels) := by
  have hblank : Draft.Fits levels {} :=
    ⟨fun rs h => (by cases h), fun cs h => (by cases h), fun us h => (by cases h)⟩
  refine Json.Record.yields_read (r := record) (P := Draft.Fits levels) hblank ?_ ?_
  · intro inner hinner f hf d hd
    obtain rfl : levels + 5 = inner := Nat.succ.inj hinner
    simp only [record, List.mem_cons, List.not_mem_nil, or_false] at hf
    rcases hf with rfl | rfl | rfl
    · refine yields_named (Json.yields_listOf (Realm.yields_read levels)) fun rs hrs => ?_
      refine ⟨fun rs' h => ?_, hd.clients, hd.users⟩
      cases h
      exact hrs
    · refine yields_named (Json.yields_listOf (Client.yields_read (levels + 2))) fun cs hcs => ?_
      refine ⟨hd.realms, fun cs' h => ?_, hd.users⟩
      cases h
      exact hcs
    · refine yields_named (Json.yields_listOf (User.yields_read (levels + 4))) fun us hus => ?_
      refine ⟨hd.realms, hd.clients, fun us' h => ?_⟩
      cases h
      exact hus
  · intro lack d s hd h
    cases h
    exact ⟨Json.forall_mem_getD hd.realms, Json.forall_mem_getD hd.clients,
      Json.forall_mem_getD hd.users⟩

/-- The snapshot that its text is read as. -/
def reread (s : Snapshot) : Snapshot where
  realms := s.realms.map Realm.reread
  clients := s.clients.map Client.reread
  users := s.users.map User.reread

theorem reads_write {levels : Nat} {s : Snapshot} (h : s.Fits levels) :
    Reads (read (levels + 6)) s.write s.reread := by
  have hrealms := Json.reads_listOf fun r hr => Realm.reads_write (h.realms r hr)
  have hclients := Json.reads_listOf fun c hc => Client.reads_write (h.clients c hc)
  have husers := Json.reads_listOf fun u hu => User.reads_write (h.users u hu)
  exact record.reads_writeObject
    (Json.Record.step (reads_named _ hrealms _) rfl rfl
      (Json.Record.step (reads_named _ hclients _) rfl rfl
        (Json.Record.step (reads_named _ husers _) rfl rfl (.nil _))))
    rfl

theorem validate_reread (s : Snapshot) : s.reread.validate = s.validate := by
  have hclients : s.reread.clients ++ s.reread.realms.flatMap Realm.clients =
      (s.clients ++ s.realms.flatMap Realm.clients).map Client.reread := by
    rw [List.map_append, List.map_flatMap, reread, List.flatMap_map]
    rfl
  unfold validate
  rw [hclients, Client.forM_reread]

theorem fits_of_ofPayload {payload : List UInt8} {s : Snapshot} (h : ofPayload payload = .ok s) :
    s.Fits 121 :=
  (yields_read 121).readDocument (checked_eq_ok_iff.mp h).1

/-- **A snapshot is read back with all that is in it.** -/
theorem ofPayload_rewritten {payload : List UInt8} {s : Snapshot}
    (h : ofPayload payload = .ok s) :
    ofPayload (Utf8.ofString s.write) = .ok s.reread :=
  checked_eq_ok_iff.mpr ⟨(reads_write (fits_of_ofPayload h)).readDocument,
    (validate_reread s).trans (checked_eq_ok_iff.mp h).2⟩

end Snapshot

/-! ### Documents without floating numbers -/

/-- Holds for clients without floating numbers. -/
def Client.isExact (c : Client) : Bool := c.authentication.attributes.all Value.isExact

/-- Holds for users without floating numbers. -/
def User.isExact (u : User) : Bool := u.document.isExact

/-- Holds for realms without floating numbers in their members. -/
def Realm.isExact (r : Realm) : Bool := r.clients.all Client.isExact && r.users.all User.isExact

/-- Holds for snapshots without floating numbers. -/
def Snapshot.isExact (s : Snapshot) : Bool :=
  s.realms.all Realm.isExact && s.clients.all Client.isExact && s.users.all User.isExact

theorem map_eq_self {α : Type} {f : α → α} {p : α → Bool} {as : List α}
    (hall : as.all p = true) (h : ∀ a, p a = true → f a = a) : as.map f = as := by
  rw [List.all_eq_true] at hall
  exact (List.map_congr_left fun a ha => h a (hall a ha)).trans (List.map_id' as)

theorem Client.reread_eq_self {c : Client} (h : c.isExact = true) : c.reread = c :=
  Kind.reread_eq_self (k := .client) h

theorem User.reread_eq_self {u : User} (h : u.isExact = true) : u.reread = u :=
  Kind.reread_eq_self (k := .user) h

theorem Realm.reread_eq_self {r : Realm} (h : r.isExact = true) : r.reread = r := by
  obtain ⟨hclients, husers⟩ := Bool.and_eq_true_iff.mp h
  unfold Realm.reread
  rw [map_eq_self hclients fun _ => Client.reread_eq_self,
    map_eq_self husers fun _ => User.reread_eq_self]

theorem Snapshot.reread_eq_self {s : Snapshot} (h : s.isExact = true) : s.reread = s := by
  obtain ⟨h, husers⟩ := Bool.and_eq_true_iff.mp h
  obtain ⟨hrealms, hclients⟩ := Bool.and_eq_true_iff.mp h
  unfold Snapshot.reread
  rw [map_eq_self hrealms fun _ => Realm.reread_eq_self,
    map_eq_self hclients fun _ => Client.reread_eq_self,
    map_eq_self husers fun _ => User.reread_eq_self]

/-! ### The names of fields

To a reader of any document the text of a record is an object, whose members have the names of
its fields. -/

namespace Json

/-- The object of some members; of two of one name the later counts. -/
def Value.ofMembers (members : List (String × Value)) : Value :=
  .object (members.foldl (fun ms m => insertMember m.1 m.2 ms) [])

theorem steps_insert {levels : Nat} {ms : List (String × String)}
    {members : List (String × Value)}
    (h : List.Forall₂ (fun m v => m.1 = v.1 ∧ Reads (value levels) m.2 v.2) ms members)
    (before : List (String × Value)) :
    Steps (readMember levels) before ms
      (members.foldl (fun ms m => insertMember m.1 m.2 ms) before) := by
  induction h generalizing before with
  | nil => exact .nil before
  | @cons m v ms members hm _ ih =>
    obtain ⟨hname, hread⟩ := hm
    refine .cons hread.starts (fun hr => ?_) (ih (insertMember v.1 v.2 before))
    rw [readMember, readColon_colon, hname]
    simp only [bind, Except.bind, hread.reads hr]
    rfl

/-- A written object is read as the object of what its members are read as. -/
theorem reads_ofMembers {levels : Nat} {ms : List (String × String)}
    {members : List (String × Value)}
    (h : List.Forall₂ (fun m v => m.1 = v.1 ∧ Reads (value levels) m.2 v.2) ms members) :
    Reads (value (levels + 1)) (writeObject ms) (.ofMembers members) := by
  refine ⟨starts_writeObject _, fun {rest} _ => ?_⟩
  rw [ofString_writeObject, value_openBrace, membersOf_written (steps_insert h [])]
  rfl

theorem reads_textValue (levels : Nat) (s : String) :
    Reads (value levels) (writeText s) (.text s) :=
  reads_exact (.text levels s) rfl

theorem reads_integerValue (levels : Nat) {n : Int} (h : FitsWord n) :
    Reads (value levels) (toString n) (.number (.integer n)) :=
  reads_exact (v := .number (.integer n)) (.number levels h) rfl

end Json

/-- The word for a kind of client. -/
def ClientKind.word : ClientKind → String
  | .confidential => "confidential"
  | .publicClient => "public"

/-- The authentication as a document. -/
def Authentication.asDocument (a : Authentication) : Value :=
  .ofMembers ([("type", .number (.integer a.kind.number)), ("value", .text a.value)] ++
    match a.attributes with
    | some v => [("attributes", v)]
    | none => [])

/-- The client as a document. -/
def Client.asDocument (c : Client) : Value :=
  .ofMembers [("type", .text c.kind.word), ("id", .text c.id.render), ("name", .text c.name),
    ("auth", c.authentication.asDocument)]

/-- The realm as a document. -/
def Realm.asDocument (r : Realm) : Value :=
  .ofMembers [("name", .text r.name), ("clients", .array (r.clients.map Client.asDocument)),
    ("users", .array (r.users.map User.document)),
    ("token_expiration", .number (.integer r.tokenExpiration.toInt)),
    ("refresh_expiration", .number (.integer r.refreshExpiration.toInt))]

/-- The snapshot as a document. -/
def Snapshot.asDocument (s : Snapshot) : Value :=
  .ofMembers [("realms", .array (s.realms.map Realm.asDocument)),
    ("clients", .array (s.clients.map Client.asDocument)),
    ("users", .array (s.users.map User.document))]

theorem Authentication.reads_asDocument {levels : Nat} {a : Authentication} (h : a.Fits levels)
    (hexact : a.attributes.all Value.isExact = true) :
    Reads (Json.value (levels + 1)) a.write a.asDocument := by
  obtain ⟨kind, value, attributes⟩ := a
  cases kind
  have hkind := Json.reads_integerValue levels (n := 1) ⟨by decide, by decide⟩
  have hvalue := Json.reads_textValue levels value
  cases attributes with
  | none => exact Json.reads_ofMembers (.cons ⟨rfl, hkind⟩ (.cons ⟨rfl, hvalue⟩ .nil))
  | some v =>
    have hattributes := Json.reads_exact (h v rfl).2 hexact
    exact Json.reads_ofMembers
      (.cons ⟨rfl, hkind⟩ (.cons ⟨rfl, hvalue⟩ (.cons ⟨rfl, hattributes⟩ .nil)))

theorem Client.reads_asDocument {levels : Nat} {c : Client} (h : c.Fits levels)
    (hexact : c.isExact = true) : Reads (Json.value (levels + 2)) c.write c.asDocument := by
  have hkind : Reads (Json.value (levels + 1)) c.kind.write (.text c.kind.word) := by
    cases c.kind <;> exact Json.reads_textValue _ _
  exact Json.reads_ofMembers
    (.cons ⟨rfl, hkind⟩
      (.cons ⟨rfl, Json.reads_textValue _ c.id.render⟩
        (.cons ⟨rfl, Json.reads_textValue _ c.name⟩
          (.cons ⟨rfl, Authentication.reads_asDocument h hexact⟩ .nil))))

theorem Realm.reads_asDocument {levels : Nat} {r : Realm} (h : r.Fits levels)
    (hexact : r.isExact = true) : Reads (Json.value (levels + 4)) r.write r.asDocument := by
  obtain ⟨hclients, husers⟩ := Bool.and_eq_true_iff.mp hexact
  rw [List.all_eq_true] at hclients husers
  have hseconds : ∀ n : Int64, Json.FitsWord n.toInt := by
    intro n
    have hlow := n.le_toInt
    have hhigh := n.toInt_lt
    exact ⟨by simpa using hlow, by omega⟩
  have hclients := Json.reads_arrayOf fun c hc =>
    Client.reads_asDocument (h.clients c hc) (hclients c hc)
  have husers := Json.reads_arrayOf fun u hu =>
    Json.reads_exact (h.users u hu) (husers u hu)
  exact Json.reads_ofMembers
    (.cons ⟨rfl, Json.reads_textValue _ r.name⟩
      (.cons ⟨rfl, hclients⟩
        (.cons ⟨rfl, husers⟩
          (.cons ⟨rfl, Json.reads_integerValue _ (hseconds r.tokenExpiration)⟩
            (.cons ⟨rfl, Json.reads_integerValue _ (hseconds r.refreshExpiration)⟩ .nil)))))

theorem Snapshot.reads_asDocument {levels : Nat} {s : Snapshot} (h : s.Fits levels)
    (hexact : s.isExact = true) : Reads (Json.value (levels + 6)) s.write s.asDocument := by
  obtain ⟨hexact, husers⟩ := Bool.and_eq_true_iff.mp hexact
  obtain ⟨hrealms, hclients⟩ := Bool.and_eq_true_iff.mp hexact
  rw [List.all_eq_true] at hrealms hclients husers
  have hrealms := Json.reads_arrayOf fun r hr =>
    Realm.reads_asDocument (h.realms r hr) (hrealms r hr)
  have hclients := Json.reads_arrayOf fun c hc =>
    Client.reads_asDocument (h.clients c hc) (hclients c hc)
  have husers := Json.reads_arrayOf fun u hu =>
    Json.reads_exact (h.users u hu) (husers u hu)
  exact Json.reads_ofMembers
    (.cons ⟨rfl, hrealms⟩ (.cons ⟨rfl, hclients⟩ (.cons ⟨rfl, husers⟩ .nil)))

/-! ### All kinds of documents -/

/-- **What is written is read back.**  Clients, users, realms and snapshots that came from any
payload come from their own text again, if there are no floating numbers in them, and to a reader
of any document this text is an object with the names of their fields.  Members of realms and
configurations are read back whatever they are. -/
theorem written_is_read_back :
    (∀ payload c, Client.ofPayload payload = .ok c → c.isExact = true →
      Client.ofPayload (Utf8.ofString c.write) = .ok c ∧
      Json.readDocument (Json.value Json.maxLevels) (Utf8.ofString c.write) = .ok c.asDocument) ∧
    (∀ payload u, User.ofPayload payload = .ok u → u.isExact = true →
      User.ofPayload (Utf8.ofString u.write) = .ok u ∧
      Json.readDocument (Json.value Json.maxLevels) (Utf8.ofString u.write) = .ok u.document) ∧
    (∀ payload r, Realm.ofPayload payload = .ok r → r.isExact = true →
      Realm.ofPayload (Utf8.ofString r.write) = .ok r ∧
      Json.readDocument (Json.value Json.maxLevels) (Utf8.ofString r.write) = .ok r.asDocument) ∧
    (∀ payload s, Snapshot.ofPayload payload = .ok s → s.isExact = true →
      Snapshot.ofPayload (Utf8.ofString s.write) = .ok s ∧
      Json.readDocument (Json.value Json.maxLevels) (Utf8.ofString s.write) = .ok s.asDocument) ∧
    (∀ m : Member,
      Json.readDocument (Member.read Json.maxLevels) (Utf8.ofString m.write) = .ok m) ∧
    ∀ c : Config, Config.ofDocument .json c.write = .ok c := by
  refine ⟨fun payload c h hexact => ⟨?_, ?_⟩, fun payload u h hexact => ⟨?_, ?_⟩,
    fun payload r h hexact => ⟨?_, ?_⟩, fun payload s h hexact => ⟨?_, ?_⟩, fun m => ?_, fun c => ?_⟩
  · rw [Client.ofPayload_rewritten h, Client.reread_eq_self hexact]
  · exact (Client.reads_asDocument (Client.sound_of_ofPayload h).fits hexact).readDocument
  · rw [User.ofPayload_rewritten h, User.reread_eq_self hexact]
  · exact (Json.reads_exact (User.sound_of_ofPayload h) hexact).readDocument
  · rw [Realm.ofPayload_rewritten h, Realm.reread_eq_self hexact]
  · exact (Realm.reads_asDocument (Realm.fits_of_ofPayload h) hexact).readDocument
  · rw [Snapshot.ofPayload_rewritten h, Snapshot.reread_eq_self hexact]
  · exact (Snapshot.reads_asDocument (Snapshot.fits_of_ofPayload h) hexact).readDocument
  · exact (Member.reads_write 126 m).readDocument
  · rw [Config.ofDocument, Config.ofJson_write]
    rfl

/-- A client without a kind, with attributes. -/
def webClientText : String :=
  "\x7b\"name\":\"web\",\"id\":\"11111111111141118111111111111111\"," ++
    "\"auth\":[1,\"secret\",\x7b\"b\":[true,null],\"a\":-7\x7d]\x7d"

/-- A user with a name that is not plain. -/
def anneUserText : String :=
  "\x7b\"info\":\x7b\"sub\":\"22222222-2222-4222-8222-222222222222\"," ++
    "\"preferred_username\":\"an\\u006ee \\\"A\\\"\"\x7d\x7d"

/-- A realm without an expiration. -/
def acmeRealmText : String := "\x7b\"token_expiration\":60,\"name\":\"acme\"\x7d"

/-- A snapshot whose fields have their other names. -/
def acmeSnapshotText : String :=
  "\x7b\"Users\":[" ++ anneUserText ++ "],\"Realms\":[" ++ acmeRealmText ++ "]\x7d"

theorem exists_of_any {ε α : Type} {x : Except ε α} {p : α → Bool}
    (h : x.toOption.any p = true) : ∃ a, x = .ok a ∧ p a = true := by
  cases x with
  | error e => cases h
  | ok a => exact ⟨a, rfl, h⟩

/-- All four are read, and read back, though their texts are not the written ones. -/
theorem written_is_read_back_acme :
    (∃ c, Client.ofPayload (Utf8.ofString webClientText) = .ok c ∧ c.isExact = true ∧
      Client.ofPayload (Utf8.ofString c.write) = .ok c) ∧
    (∃ u, User.ofPayload (Utf8.ofString anneUserText) = .ok u ∧ u.isExact = true ∧
      User.ofPayload (Utf8.ofString u.write) = .ok u) ∧
    (∃ r, Realm.ofPayload (Utf8.ofString acmeRealmText) = .ok r ∧ r.isExact = true ∧
      Realm.ofPayload (Utf8.ofString r.write) = .ok r) ∧
    ∃ s, Snapshot.ofPayload (Utf8.ofString acmeSnapshotText) = .ok s ∧ s.isExact = true ∧
      Snapshot.ofPayload (Utf8.ofString s.write) = .ok s := by
  obtain ⟨hclients, husers, hrealms, hsnapshots, -⟩ := written_is_read_back
  obtain ⟨c, hc, hexact⟩ : ∃ c, Client.ofPayload (Utf8.ofString webClientText) = .ok c ∧
      c.isExact = true := exists_of_any (by decide +kernel)
  obtain ⟨u, hu, huexact⟩ : ∃ u, User.ofPayload (Utf8.ofString anneUserText) = .ok u ∧
      u.isExact = true := exists_of_any (by decide +kernel)
  obtain ⟨r, hr, hrexact⟩ : ∃ r, Realm.ofPayload (Utf8.ofString acmeRealmText) = .ok r ∧
      r.isExact = true := exists_of_any (by decide +kernel)
  obtain ⟨s, hs, hsexact⟩ : ∃ s, Snapshot.ofPayload (Utf8.ofString acmeSnapshotText) = .ok s ∧
      s.isExact = true := exists_of_any (by decide +kernel)
  exact ⟨⟨c, hc, hexact, (hclients _ c hc hexact).1⟩, ⟨u, hu, huexact, (husers _ u hu huexact).1⟩,
    ⟨r, hr, hrexact, (hrealms _ r hr hrexact).1⟩,
    ⟨s, hs, hsexact, (hsnapshots _ s hs hsexact).1⟩⟩

end IdentityStore
