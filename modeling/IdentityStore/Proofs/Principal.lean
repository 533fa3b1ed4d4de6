/-
Records are read back.

A record that came from a payload is written as an object whose members are its fields,
and each of them is read back because its kind of value is.  The record that results
is `reread`: the same name, the same identifier, and all else but for the floating
numbers in the documents that it carries.

A realm is read back with its members.  A store that keeps them elsewhere writes it without
them, and then nothing of it is lost: `Realm.ofPayload_write`.  The same holds of membership
lists: `Member.readEntry_writeEntry`.
-/
import IdentityStore.Proofs.Json.Document
import IdentityStore.Proofs.Uuid
import IdentityStore.Principal

namespace IdentityStore

open Json (Value Reader Reads Yields Steps Field Starts)

/-! ### Fields -/

namespace Json

variable {δ β : Type}

/-- What is read into a field is kept. -/
theorem reads_field {name : String} {get : δ → Option β} {set : β → δ → δ}
    (read : Nat → Reader β) {levels : Nat} {w : String} {b : β} (h : Reads (read levels) w b)
    (d : δ) : Reads ((Field.of name get set read).read levels d) w (set b d) := by
  refine ⟨h.starts, fun hr => ?_⟩
  show ((read levels _).map fun b => (set b.1 d, b.2)) = _
  rw [h.reads hr]
  rfl

/-- A field keeps a property of drafts if all that is read into it does. -/
theorem yields_field {name : String} {get : δ → Option β} {set : β → δ → δ}
    {read : Nat → Reader β} {levels : Nat} {P : δ → Prop} {Q : β → Prop} {d : δ}
    (hread : Yields (read levels) Q) (hset : ∀ b, Q b → P (set b d)) :
    Yields ((Field.of name get set read).read levels d) P := by
  intro s d' rest h
  obtain ⟨⟨b, r⟩, hb, h⟩ := exists_of_map_eq_ok h
  cases h
  exact hset b (hread hb)

theorem yields_true {read : Reader β} : Yields read fun _ => True := fun _ _ _ _ => trivial

/-- What is known of the items of a list that may be missing is known if none stand for it. -/
theorem forall_mem_getD {α : Type} {P : α → Prop} {o : Option (List α)}
    (h : ∀ as, o = some as → ∀ a ∈ as, P a) : ∀ a ∈ o.getD [], P a := by
  cases o with
  | none => exact fun a ha => absurd ha List.not_mem_nil
  | some as => exact h as rfl

theorem reads_uuid (u : Uuid) : Reads uuid (writeText u.render) u := by
  refine ⟨starts_writeText _, fun {rest} hr => ?_⟩
  rw [uuid, (reads_text _ _).reads hr]
  simp only [bind, Except.bind, Uuid.read_render]
  rfl

/-- One more member of a record that is read back. -/
theorem Record.step {α : Type} {r : Record δ α} {levels : Nat} {name w : String}
    {d d' d'' : δ} {f : Field δ} {ms : List (String × String)}
    (hread : Reads (f.read levels d) w d')
    (hfind : r.fields.find? (·.answersTo name) = some f) (hgiven : f.given d = false)
    (hmore : Steps (r.readMember levels) d' ms d'') :
    Steps (r.readMember levels) d ((name, w) :: ms) d'' :=
  .cons hread.starts (fun hr => r.readMember_field hfind hgiven hread hr) hmore

end Json

open Json (reads_field reads_text reads_uuid)

/-! ### Entries of membership lists -/

namespace Member

theorem reads_write (levels : Nat) (m : Member) : Reads (read (levels + 1)) m.write m :=
  record.reads_writeObject
    (Json.Record.step (reads_field _ (reads_uuid m.id) _) rfl rfl
      (Json.Record.step (reads_field _ (reads_text _ m.name) _) rfl rfl (.nil _)))
    rfl

/-- **A written membership list is read back.** -/
theorem readEntry_writeEntry (ms : List Member) : readEntry (writeEntry ms) = .ok ms := by
  refine (Json.reads_list ?_).readDocument
  rw [List.forall₂_map_left_iff, List.forall₂_same]
  exact fun m _ => reads_write 125 m

end Member

/-! ### Payloads that keep rules -/

/-- What a payload is read as, if it keeps some rules. -/
def checked {α : Type} (read : Reader α) (validate : α → Except Flaw Unit)
    (payload : List UInt8) : Except PayloadFault α := do
  let a ← (Json.readDocument read payload).mapError .unreadable
  (validate a).mapError .flawed
  return a

theorem checked_eq_ok_iff {α : Type} {read : Reader α} {validate : α → Except Flaw Unit}
    {payload : List UInt8} {a : α} :
    checked read validate payload = .ok a ↔
      Json.readDocument read payload = .ok a ∧ validate a = .ok () := by
  constructor
  · intro h
    obtain ⟨b, hread, h⟩ := Json.exists_of_bind_eq_ok h
    obtain ⟨_, hvalid, h⟩ := Json.exists_of_bind_eq_ok h
    cases h
    exact ⟨Json.eq_ok_of_mapError hread, Json.eq_ok_of_mapError hvalid⟩
  · rintro ⟨hread, hvalid⟩
    unfold checked
    rw [hread]
    simp only [Except.mapError, bind, Except.bind, hvalid]
    rfl

/-! ### Clients -/

namespace Authentication

/-- Holds for what is read of an authentication with some levels left. -/
def Fits (levels : Nat) (a : Authentication) : Prop :=
  ∀ v, a.attributes = some v → v ≠ .null ∧ v.Fits levels

/-- The authentication that its text is read as. -/
def reread (a : Authentication) : Authentication :=
  { a with attributes := a.attributes.map Value.reread }

theorem reads_kind (k : AuthenticationKind) : Reads AuthenticationKind.read k.write k := by
  cases k
  have h := Json.reads_integer (w := .u8) (n := 1) (by decide) ⟨by decide, by decide⟩
  refine ⟨h.starts, fun {rest} hr => ?_⟩
  rw [AuthenticationKind.read, Json.natural, show AuthenticationKind.write .idAndSecret
    = toString (1 : Int) from rfl, h.reads hr]
  rfl

theorem reads_write {levels : Nat} {a : Authentication} (h : a.Fits levels) :
    Reads (record.read (levels + 1)) a.write a.reread := by
  obtain ⟨kind, value, attributes⟩ := a
  have htype : ∀ d : Draft, Reads ((Json.Field.of "type" Draft.kind
      (fun b d => { d with kind := some b }) fun _ => AuthenticationKind.read).read levels d)
      kind.write { d with kind := some kind } :=
    reads_field (fun _ => AuthenticationKind.read) (reads_kind kind)
  cases attributes with
  | none =>
      exact record.reads_writeObject
        (Json.Record.step (htype _) rfl rfl
          (Json.Record.step (reads_field _ (reads_text _ value) _) rfl rfl (.nil _)))
        rfl
  | some v =>
      obtain ⟨hv, hfits⟩ := h v rfl
      have hattributes := Json.reads_optional (Json.reads_write hfits) (Json.head_write_ne hv)
      exact record.reads_writeObject
        (Json.Record.step (htype _) rfl rfl
          (Json.Record.step (reads_field _ (reads_text _ value) _) rfl rfl
            (Json.Record.step (reads_field (fun levels => Json.optional (Json.value levels))
              hattributes _) rfl rfl (.nil _))))
        rfl

/-- What is known of the attributes of a draft. -/
def Draft.Fits (levels : Nat) (d : Draft) : Prop :=
  ∀ v, d.attributes = some (some v) → v ≠ .null ∧ v.Fits levels

theorem yields_read (levels : Nat) :
    Yields (record.read (levels + 1)) (Fits levels) := by
  refine Json.Record.yields_read (P := Draft.Fits levels) (by intro v h; cases h) ?_ ?_
  · intro inner hinner f hf d hd
    obtain rfl : levels = inner := Nat.succ.inj hinner
    simp only [record, List.mem_cons, List.not_mem_nil, or_false] at hf
    rcases hf with rfl | rfl | rfl
    · exact Json.yields_field Json.yields_true fun _ _ => hd
    · exact Json.yields_field Json.yields_true fun _ _ => hd
    · refine Json.yields_field (Json.yields_optional_value levels) ?_
      intro b hb v hv
      exact hb v (Option.some.inj hv)
  · intro lack d a hd h
    obtain ⟨kind, -, h⟩ := Json.exists_of_bind_eq_ok h
    obtain ⟨value, -, h⟩ := Json.exists_of_bind_eq_ok h
    cases h
    intro v hv
    rcases hdraft : d.attributes with _ | o
    · rw [hdraft] at hv
      cases hv
    · rw [hdraft, Option.getD_some] at hv
      have hv' : o = some v := hv
      exact hd v (by rw [hdraft, hv'])

end Authentication

namespace Client

/-- Holds for what is read of a client with some levels left. -/
def Fits (levels : Nat) (c : Client) : Prop := c.authentication.Fits levels

/-- The client that its text is read as. -/
def reread (c : Client) : Client := { c with authentication := c.authentication.reread }

theorem Fits.mono {levels levels' : Nat} {c : Client} (h : c.Fits levels) (hle : levels ≤ levels') :
    c.Fits levels' :=
  fun v hv => ⟨(h v hv).1, (h v hv).2.mono hle⟩

theorem reads_kind (levels : Nat) (k : ClientKind) : Reads (ClientKind.read levels) k.write k := by
  cases k
  · exact Json.reads_choice levels "confidential" rfl
  · exact Json.reads_choice levels "public" rfl

theorem reads_write {levels : Nat} {c : Client} (h : c.Fits levels) :
    Reads (read (levels + 2)) c.write c.reread :=
  record.reads_writeObject
    (Json.Record.step (reads_field _ (reads_kind _ c.kind) _) rfl rfl
      (Json.Record.step (reads_field _ (reads_uuid c.id) _) rfl rfl
        (Json.Record.step (reads_field _ (reads_text _ c.name) _) rfl rfl
          (Json.Record.step (reads_field _ (Authentication.reads_write h) _) rfl rfl (.nil _)))))
    rfl

/-- What is known of the authentication of a draft. -/
def Draft.Fits (levels : Nat) (d : Draft) : Prop := ∀ a, d.authentication = some a → a.Fits levels

theorem yields_read (levels : Nat) : Yields (read (levels + 2)) (Fits levels) := by
  refine Json.Record.yields_read (P := Draft.Fits levels) (by intro v h; cases h) ?_ ?_
  · intro inner hinner f hf d hd
    obtain rfl : levels + 1 = inner := Nat.succ.inj hinner
    simp only [record, List.mem_cons, List.not_mem_nil, or_false] at hf
    rcases hf with rfl | rfl | rfl | rfl
    · exact Json.yields_field Json.yields_true fun _ _ => hd
    · exact Json.yields_field Json.yields_true fun _ _ => hd
    · exact Json.yields_field Json.yields_true fun _ _ => hd
    · refine Json.yields_field (Authentication.yields_read levels) ?_
      intro b hb a ha
      cases ha
      exact hb
  · intro lack d c hd h
    obtain ⟨id, -, h⟩ := Json.exists_of_bind_eq_ok h
    obtain ⟨name, -, h⟩ := Json.exists_of_bind_eq_ok h
    cases h
    intro v hv
    rcases hdraft : d.authentication with _ | a
    · rw [hdraft] at hv
      cases hv
    · rw [hdraft] at hv
      exact hd a hdraft v hv

/-- Holds for the clients that payloads describe. -/
structure Sound (c : Client) : Prop where
  valid : c.validate = .ok ()
  fits : c.Fits 125

/-- **A written client is read back.** -/
theorem ofPayload_write {c : Client} (h : c.Sound) :
    ofPayload (Utf8.ofString c.write) = .ok c.reread :=
  checked_eq_ok_iff.mpr ⟨(reads_write h.fits).readDocument, h.valid⟩

theorem sound_of_ofPayload {payload : List UInt8} {c : Client} (h : ofPayload payload = .ok c) :
    c.Sound := by
  obtain ⟨hread, hvalid⟩ := checked_eq_ok_iff.mp h
  exact ⟨hvalid, (yields_read 125).readDocument hread⟩

/-- **A client is read back**, whatever it came from. -/
theorem ofPayload_rewritten {payload : List UInt8} {c : Client} (h : ofPayload payload = .ok c) :
    ofPayload (Utf8.ofString c.write) = .ok c.reread :=
  ofPayload_write (sound_of_ofPayload h)

theorem forM_reread (cs : List Client) :
    (cs.map reread).forM validate = cs.forM validate := by
  induction cs with
  | nil => rfl
  | cons c cs ih =>
    rw [List.map_cons]
    exact congrArg (fun rest => c.validate >>= fun _ => rest) ih

end Client

/-! ### Users -/

/-- Reading a document back leaves the identity that it states. -/
theorem identity_reread (v : Value) : identity v.reread = identity v := by
  unfold identity
  rw [Json.member?_reread]
  rcases hinfo : v.member? "info" with _ | info
  · rfl
  rw [Option.map_some]
  cases info with
  | object members =>
      have hmember : ∀ name, (Value.object members).reread.member? name
          = ((Value.object members).member? name).map Value.reread :=
        Json.member?_reread _
      rw [Value.reread] at hmember ⊢
      dsimp only
      rw [hmember, hmember]
      rcases (Value.object members).member? "preferred_username" with _ | name
      · rfl
      cases name with
      | text name =>
          rcases (Value.object members).member? "sub" with _ | spelling
          · rfl
          · cases spelling <;> rfl
      | _ => rfl
  | _ => rfl

namespace User

/-- The user that its text is read as. -/
def reread (u : User) : User :=
  ⟨u.document.reread, u.id, u.name, (identity_reread _).trans u.identity_document⟩

/-- Holds for the users that payloads describe. -/
def Sound (u : User) : Prop := u.document.Fits Json.maxLevels

theorem ofDocument_document (u : User) : ofDocument u.document = .ok u := by
  unfold ofDocument
  split
  · rename_i id name h
    have hsame := h.symm.trans u.identity_document
    cases hsame
    rfl
  · rename_i flaw h
    have hsame := h.symm.trans u.identity_document
    cases hsame

theorem document_of_ofDocument {v : Value} {u : User} (h : ofDocument v = .ok u) :
    u.document = v := by
  unfold ofDocument at h
  split at h
  · cases h
    rfl
  · cases h

/-- **A written user is read back.** -/
theorem ofPayload_write {u : User} (h : u.Sound) :
    ofPayload (Utf8.ofString u.write) = .ok u.reread := by
  have hdocument : ofDocument u.document.reread = .ok u.reread := ofDocument_document u.reread
  rw [ofPayload, write, (Json.reads_write h).readDocument]
  simp only [Except.mapError, bind, Except.bind, hdocument]

theorem sound_of_ofPayload {payload : List UInt8} {u : User} (h : ofPayload payload = .ok u) :
    u.Sound := by
  obtain ⟨v, hread, h⟩ := Json.exists_of_bind_eq_ok h
  rw [Sound, document_of_ofDocument (Json.eq_ok_of_mapError h)]
  exact (Json.yields_value _).readDocument (Json.eq_ok_of_mapError hread)

/-- **A user is read back**, whatever it came from. -/
theorem ofPayload_rewritten {payload : List UInt8} {u : User} (h : ofPayload payload = .ok u) :
    ofPayload (Utf8.ofString u.write) = .ok u.reread :=
  ofPayload_write (sound_of_ofPayload h)

theorem reads_write {levels : Nat} {u : User} (h : u.document.Fits levels) :
    Reads (read levels) u.write u.reread := by
  have hread := Json.reads_write h
  have hdocument : ofDocument u.document.reread = .ok u.reread := ofDocument_document u.reread
  refine ⟨hread.starts, fun {rest} hr => ?_⟩
  rw [read, write, hread.reads hr]
  simp only [Except.mapError, bind, Except.bind, hdocument]
  rfl

theorem yields_read (levels : Nat) : Yields (read levels) fun u => u.document.Fits levels := by
  intro s u rest h
  obtain ⟨⟨v, r⟩, hv, h⟩ := Json.exists_of_bind_eq_ok h
  obtain ⟨u', hu, h⟩ := Json.exists_of_bind_eq_ok h
  cases h
  rw [document_of_ofDocument (Json.eq_ok_of_mapError hu)]
  exact Json.yields_value _ hv

end User

/-! ### Realms -/

namespace Realm

theorem reads_seconds (n : Int64) : Reads readSeconds (toString n.toInt) n := by
  have hlow := n.le_toInt
  have hhigh := n.toInt_lt
  have h := Json.reads_integer (w := .i64) (n := n.toInt)
    ⟨by simpa [Width.i64] using hlow, by simp only [Width.i64]; omega⟩
    ⟨by simpa using hlow, by omega⟩
  have hmap := h.map Int64.ofInt
  rwa [Int64.ofInt_toInt] at hmap

/-- What is known of the members of a draft. -/
structure Draft.Fits (levels : Nat) (d : Draft) : Prop where
  clients : ∀ cs, d.clients = some cs → ∀ c ∈ cs, c.Fits levels
  users : ∀ us, d.users = some us → ∀ u ∈ us, u.document.Fits (levels + 2)

/-- Holds for what is read of a realm with some levels left. -/
structure Fits (levels : Nat) (r : Realm) : Prop where
  clients : ∀ c ∈ r.clients, c.Fits levels
  users : ∀ u ∈ r.users, u.document.Fits (levels + 2)

theorem yields_read (levels : Nat) : Yields (read (levels + 4)) (Fits levels) := by
  have hblank : Draft.Fits levels {} := ⟨fun cs h => (nomatch h), fun us h => (nomatch h)⟩
  refine Json.Record.yields_read (r := record) (P := Draft.Fits levels) hblank ?_ ?_
  · intro inner hinner f hf d hd
    obtain rfl : levels + 3 = inner := Nat.succ.inj hinner
    simp only [record, List.mem_cons, List.not_mem_nil, or_false] at hf
    rcases hf with rfl | rfl | rfl | rfl | rfl
    · exact Json.yields_field Json.yields_true fun _ _ => ⟨hd.clients, hd.users⟩
    · refine Json.yields_field (Json.yields_listOf (Client.yields_read levels)) fun cs hcs => ?_
      refine ⟨fun cs' h => ?_, hd.users⟩
      cases h
      exact hcs
    · refine Json.yields_field (Json.yields_listOf (User.yields_read (levels + 2))) fun us hus => ?_
      refine ⟨hd.clients, fun us' h => ?_⟩
      cases h
      exact hus
    · exact Json.yields_field Json.yields_true fun _ _ => ⟨hd.clients, hd.users⟩
    · exact Json.yields_field Json.yields_true fun _ _ => ⟨hd.clients, hd.users⟩
  · intro lack d r hd h
    obtain ⟨name, -, h⟩ := Json.exists_of_bind_eq_ok h
    cases h
    exact ⟨Json.forall_mem_getD hd.clients, Json.forall_mem_getD hd.users⟩

/-- The realm that its text is read as. -/
def reread (r : Realm) : Realm :=
  { r with clients := r.clients.map Client.reread, users := r.users.map User.reread }

theorem reads_write {levels : Nat} {r : Realm} (h : r.Fits levels) :
    Reads (read (levels + 4)) r.write r.reread := by
  have hclients := Json.reads_listOf fun c hc => Client.reads_write (h.clients c hc)
  have husers := Json.reads_listOf fun u hu => User.reads_write (h.users u hu)
  exact record.reads_writeObject
    (Json.Record.step (reads_field _ (reads_text _ r.name) _) rfl rfl
      (Json.Record.step (reads_field _ hclients _) rfl rfl
        (Json.Record.step (reads_field _ husers _) rfl rfl
          (Json.Record.step (reads_field _ (reads_seconds r.tokenExpiration) _) rfl rfl
            (Json.Record.step (reads_field _ (reads_seconds r.refreshExpiration) _) rfl rfl
              (.nil _))))))
    rfl

theorem validate_reread (r : Realm) : r.reread.validate = r.validate := by
  unfold validate
  rw [show r.reread.clients = r.clients.map Client.reread from rfl, Client.forM_reread]
  rfl

theorem fits_of_ofPayload {payload : List UInt8} {r : Realm} (h : ofPayload payload = .ok r) :
    r.Fits 123 :=
  (yields_read 123).readDocument (checked_eq_ok_iff.mp h).1

/-- **A realm is read back with its members**, whatever it came from. -/
theorem ofPayload_rewritten {payload : List UInt8} {r : Realm} (h : ofPayload payload = .ok r) :
    ofPayload (Utf8.ofString r.write) = .ok r.reread :=
  checked_eq_ok_iff.mpr ⟨(reads_write (fits_of_ofPayload h)).readDocument,
    (validate_reread r).trans (checked_eq_ok_iff.mp h).2⟩

/-- **A written realm is read back** if it has a name and no members. -/
theorem ofPayload_write {r : Realm} (h : r.name ≠ "") :
    ofPayload (Utf8.ofString r.withoutMembers.write) = .ok r.withoutMembers := by
  have hfits : r.withoutMembers.Fits 123 :=
    ⟨fun c hc => absurd hc List.not_mem_nil, fun u hu => absurd hu List.not_mem_nil⟩
  refine checked_eq_ok_iff.mpr ⟨(reads_write hfits).readDocument, ?_⟩
  rw [validate, if_neg (show r.withoutMembers.name ≠ "" from h)]
  rfl

/-- Clients that are good together are good one by one. -/
theorem valid_of_forM {cs : List Client} (h : cs.forM Client.validate = .ok ()) :
    ∀ c ∈ cs, c.validate = .ok () := by
  induction cs with
  | nil => exact fun c hc => nomatch hc
  | cons c cs ih =>
      obtain ⟨u, hc, hcs⟩ := Json.exists_of_bind_eq_ok h
      intro b hb
      rcases List.mem_cons.mp hb with rfl | hb
      · exact hc
      · exact ih hcs b hb

/-- What is known of a realm that a payload describes. -/
structure Sound (r : Realm) : Prop where
  name : r.name ≠ ""
  clients : ∀ c ∈ r.clients, c.Sound
  users : ∀ u ∈ r.users, u.Sound

theorem sound_of_ofPayload {payload : List UInt8} {r : Realm} (h : ofPayload payload = .ok r) :
    r.Sound := by
  obtain ⟨hclients, husers⟩ := fits_of_ofPayload h
  have hvalid := (checked_eq_ok_iff.mp h).2
  by_cases hname : r.name = ""
  · rw [validate, if_pos hname] at hvalid
    cases hvalid
  · rw [validate, if_neg hname] at hvalid
    refine ⟨hname, fun c hc => ⟨valid_of_forM hvalid c hc, ?_⟩, fun u hu => ?_⟩
    · exact (hclients c hc).mono (by decide)
    · exact (husers u hu).mono (by decide)

end Realm

/-! ### Records of either kind -/

namespace Kind

/-- Holds for the records that payloads describe. -/
def Sound : (k : Kind) → k.Record → Prop
  | .client, c => Client.Sound c
  | .user, u => User.Sound u

/-- The record that the text of a record is read as. -/
def reread : (k : Kind) → k.Record → k.Record
  | .client, c => Client.reread c
  | .user, u => User.reread u

/-- Holds for records without floating numbers. -/
def isExact : (k : Kind) → k.Record → Bool
  | .client, c => c.authentication.attributes.all Value.isExact
  | .user, u => u.document.isExact

variable {k : Kind}

@[simp] theorem kind_record (k : Kind) : Principal.kind k.Record = k := by
  cases k <;> rfl

@[simp] theorem entity_record (k : Kind) : Principal.entity k.Record = k.entity := by
  cases k <;> rfl

theorem sound_of_ofPayload {payload : List UInt8} {a : k.Record}
    (h : Principal.ofPayload payload = .ok a) : k.Sound a := by
  cases k with
  | client => exact Client.sound_of_ofPayload h
  | user => exact User.sound_of_ofPayload h

/-- **A written record is read back** as `reread` says. -/
theorem ofPayload_write {a : k.Record} (h : k.Sound a) :
    Principal.ofPayload (Utf8.ofString (Principal.write a)) = .ok (k.reread a) := by
  cases k with
  | client => exact Client.ofPayload_write h
  | user => exact User.ofPayload_write h

@[simp] theorem id_reread (a : k.Record) : Principal.id (k.reread a) = Principal.id a := by
  cases k <;> rfl

@[simp] theorem name_reread (a : k.Record) : Principal.name (k.reread a) = Principal.name a := by
  cases k <;> rfl

@[simp] theorem member_reread (a : k.Record) :
    Principal.member (k.reread a) = Principal.member a := by
  cases k <;> rfl

/-- A record without floating numbers is read back as itself. -/
theorem reread_eq_self {a : k.Record} (h : k.isExact a = true) : k.reread a = a := by
  cases k with
  | client =>
      obtain ⟨kind, id, name, kind', value, attributes⟩ := a
      cases attributes with
      | none => rfl
      | some v =>
          have hv : v.reread = v := v.reread_eq_self (by simpa [isExact] using h)
          show Client.mk kind id name ⟨kind', value, some v.reread⟩ = _
          rw [hv]
  | user =>
      obtain ⟨v, id, name, hid⟩ := a
      have hv : v.reread = v := v.reread_eq_self h
      show User.mk v.reread id name _ = _
      simp only [hv]

end Kind

end IdentityStore
