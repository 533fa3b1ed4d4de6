/-
What an identity store is, apart from how it is kept.

A directory has realms, clients and users by name, and every realm lists the names of its
members.  Nothing is kept twice, and a name is all that connects a realm with a record.
`perform` says what each operation answers, errors in the order in which they come, and
what it leaves.

The records that come with a new realm are written anew before they are kept.  What is read
back is told by `keep`; for documents without floating numbers it is the record itself:
`perform_reread`.
-/
import IdentityStore.Operation
import IdentityStore.Proofs.Principal
import Mathlib.Logic.Function.Basic

namespace IdentityStore

open Principal (name)

/-! ### Tenants -/

/-- What is known of a realm. -/
structure Tenant where
  tokenExpiration : Int64
  refreshExpiration : Int64
  /-- The names of the members of a kind, in the order in which they came. -/
  members : Kind → List String

namespace Tenant

/-- The realm of a tenant, without members. -/
def realm (n : String) (t : Tenant) : Realm := .empty n t.tokenExpiration t.refreshExpiration

/-- Puts a name at the end of a list, unless it is listed. -/
def add (kind : Kind) (n : String) (t : Tenant) : Tenant :=
  if n ∈ t.members kind then t
  else { t with members := Function.update t.members kind (t.members kind ++ [n]) }

/-- Takes a name out of a list. -/
def remove (kind : Kind) (n : String) (t : Tenant) : Tenant :=
  { t with members := Function.update t.members kind ((t.members kind).filter (· ≠ n)) }

variable {kind kind' : Kind} (n : String) (t : Tenant)

theorem members_add : (t.add kind n).members kind
    = if n ∈ t.members kind then t.members kind else t.members kind ++ [n] := by
  unfold add
  split_ifs
  · rfl
  · exact Function.update_self ..

theorem members_add_ne (h : kind' ≠ kind) :
    (t.add kind n).members kind' = t.members kind' := by
  unfold add
  split_ifs
  · rfl
  · exact Function.update_of_ne h _ _

theorem realm_add (m : String) : (t.add kind n).realm m = t.realm m := by
  unfold add
  split_ifs <;> rfl

theorem members_remove :
    (t.remove kind n).members kind = (t.members kind).filter (· ≠ n) := Function.update_self ..

theorem members_remove_ne (h : kind' ≠ kind) :
    (t.remove kind n).members kind' = t.members kind' := Function.update_of_ne h _ _

end Tenant

/-! ### Directories -/

/-- Realms, and records of both kinds, by name. -/
structure Directory where
  tenants : Std.ExtTreeMap String Tenant
  records : (kind : Kind) → Std.ExtTreeMap String kind.Record

namespace Directory

/-- A directory without realms and records. -/
def empty : Directory := ⟨∅, fun _ => ∅⟩

variable (d : Directory) {kind : Kind}

/-- The tenant of a name. -/
def tenant (n : String) : Except StorageError Tenant :=
  match d.tenants[n]? with
  | some t => .ok t
  | none => .error (.notFound "Realm" n)

/-- The record of a name. -/
def record (kind : Kind) (n : String) : Except StorageError kind.Record :=
  match (d.records kind)[n]? with
  | some a => .ok a
  | none => .error (.notFound kind.entity n)

/-- The records of a tenant's members. -/
def members (kind : Kind) (t : Tenant) : List kind.Record :=
  (t.members kind).filterMap fun n => (d.records kind)[n]?

/-- The names that a realm lists. -/
def listed (kind : Kind) (r : String) : List String :=
  match d.tenants[r]? with
  | some t => t.members kind
  | none => []

/-- The directory with another tenant under a name. -/
def putTenant (n : String) (t : Tenant) : Directory :=
  { d with tenants := d.tenants.insert n t }

/-- Takes the tenant of a name out. -/
def dropTenant (n : String) : Directory := { d with tenants := d.tenants.erase n }

/-- Puts a record under its name. -/
def putRecord (a : kind.Record) : Directory :=
  { d with records := Function.update d.records kind ((d.records kind).insert (name a) a) }

/-- Takes the record of a name out, and the name out of every list. -/
def dropRecord (kind : Kind) (n : String) : Directory where
  tenants := d.tenants.map fun _ t => t.remove kind n
  records := Function.update d.records kind ((d.records kind).erase n)

variable {d}

theorem getElem?_of_tenant {t : Tenant} {n : String} (h : d.tenant n = .ok t) :
    d.tenants[n]? = some t := by
  unfold tenant at h
  split at h
  · cases h
    assumption
  · cases h

theorem getElem?_of_record {n : String} {a : kind.Record} (h : d.record kind n = .ok a) :
    (d.records kind)[n]? = some a := by
  unfold record at h
  split at h
  · cases h
    assumption
  · cases h

theorem listed_of_tenant {t : Tenant} {r : String} (h : d.tenant r = .ok t) (kind : Kind) :
    d.listed kind r = t.members kind := by
  rw [listed, getElem?_of_tenant h]

theorem getElem?_putTenant (n : String) (t : Tenant) (m : String) :
    (d.putTenant n t).tenants[m]? = if n = m then some t else d.tenants[m]? := by
  show (d.tenants.insert n t)[m]? = _
  rw [Std.ExtTreeMap.getElem?_insert]
  simp only [Std.LawfulEqCmp.compare_eq_iff_eq]

theorem getElem?_dropTenant (n m : String) :
    (d.dropTenant n).tenants[m]? = if n = m then none else d.tenants[m]? := by
  show (d.tenants.erase n)[m]? = _
  rw [Std.ExtTreeMap.getElem?_erase]
  simp only [Std.LawfulEqCmp.compare_eq_iff_eq]

theorem listed_putTenant (kind : Kind) (r : String) (t : Tenant) (r' : String) :
    (d.putTenant r t).listed kind r' = if r = r' then t.members kind else d.listed kind r' := by
  unfold listed
  rw [getElem?_putTenant]
  split_ifs <;> rfl

theorem listed_dropTenant (kind : Kind) (r r' : String) :
    (d.dropTenant r).listed kind r' = if r = r' then [] else d.listed kind r' := by
  unfold listed
  rw [getElem?_dropTenant]
  split_ifs <;> rfl

theorem getElem?_putRecord (a : kind.Record) (m : String) :
    ((d.putRecord a).records kind)[m]? = if name a = m then some a else (d.records kind)[m]? := by
  show (Function.update d.records kind ((d.records kind).insert (name a) a) kind)[m]? = _
  rw [Function.update_self, Std.ExtTreeMap.getElem?_insert]
  simp only [Std.LawfulEqCmp.compare_eq_iff_eq]

theorem records_putRecord_ne {kind' : Kind} (h : kind' ≠ kind) (a : kind.Record) :
    (d.putRecord a).records kind' = d.records kind' := Function.update_of_ne h _ _

theorem getElem?_dropRecord (n m : String) :
    ((d.dropRecord kind n).records kind)[m]? = if n = m then none else (d.records kind)[m]? := by
  show (Function.update d.records kind ((d.records kind).erase n) kind)[m]? = _
  rw [Function.update_self, Std.ExtTreeMap.getElem?_erase]
  simp only [Std.LawfulEqCmp.compare_eq_iff_eq]

theorem records_dropRecord_ne {kind' : Kind} (h : kind' ≠ kind) (n : String) :
    (d.dropRecord kind n).records kind' = d.records kind' := Function.update_of_ne h _ _

theorem getElem?_tenants_dropRecord (n m : String) :
    (d.dropRecord kind n).tenants[m]? = (d.tenants[m]?).map (Tenant.remove kind n) := by
  show (d.tenants.map fun _ t => t.remove kind n)[m]? = _
  rw [Std.ExtTreeMap.getElem?_map]

theorem listed_dropRecord (n : String) (kind' : Kind) (r : String) :
    (d.dropRecord kind n).listed kind' r
      = if kind' = kind then (d.listed kind' r).filter (· ≠ n) else d.listed kind' r := by
  unfold listed
  rw [getElem?_tenants_dropRecord]
  rcases d.tenants[r]? with _ | t
  · split_ifs <;> rfl
  · show (t.remove kind n).members kind' = _
    split_ifs with hkind
    · subst hkind
      exact t.members_remove n
    · exact t.members_remove_ne n hkind

variable (d)

/-! ### Requests -/

/-- The record that a payload describes. -/
def readRecord (kind : Kind) (payload : List UInt8) : Except StorageError kind.Record :=
  (Principal.ofPayload payload).mapError (.ofPayload kind.entity)

/-- The realm that a payload describes. -/
def readRealm (payload : List UInt8) : Except StorageError Realm :=
  (Realm.ofPayload payload).mapError (.ofPayload "Realm")

/-- The text that a payload is. -/
def readText (kind : Kind) (payload : List UInt8) : Except StorageError String :=
  (Utf8.decode payload).mapError fun flaw => .malformed kind.entity flaw.message

/-- Refuses a record if another identifier is known under its name. -/
def checkId (known : Option kind.Record) (a : kind.Record) : Except StorageError Unit :=
  match known with
  | none => .ok ()
  | some b =>
    if Principal.id b = Principal.id a then .ok ()
    else .error (.otherId kind.entity (Principal.id b) (Principal.id a))

/-- Refuses new members of which two share a name, or whose identifier is not the one that
is known. -/
def checkNew (kind : Kind) (known : String → Option kind.Record) (seen : List String) :
    List kind.Record → Except StorageError Unit
  | [] => .ok ()
  | a :: rest =>
    if name a ∈ seen then .error (.duplicate kind.entity "name" (name a))
    else do
      checkId (known (name a)) a
      checkNew kind known (name a :: seen) rest

/-- New members that are accepted have different names, and identifiers that are known or
new. -/
theorem of_checkNew {known : String → Option kind.Record} {seen : List String}
    {as : List kind.Record} (h : checkNew kind known seen as = .ok ()) :
    (as.map name).Nodup ∧ (∀ a ∈ as, name a ∉ seen) ∧
      ∀ a ∈ as, checkId (known (name a)) a = .ok () := by
  induction as generalizing seen with
  | nil => exact ⟨List.nodup_nil, fun a ha => (nomatch ha), fun a ha => (nomatch ha)⟩
  | cons a rest ih =>
      rw [checkNew] at h
      split_ifs at h with hseen
      obtain ⟨u, hid, hrest⟩ := Json.exists_of_bind_eq_ok h
      obtain ⟨hnodup, hfresh, hids⟩ := ih hrest
      refine ⟨List.nodup_cons.mpr ⟨fun hmem => ?_, hnodup⟩, fun b hb => ?_, fun b hb => ?_⟩
      · obtain ⟨b, hb, heq⟩ := List.mem_map.mp hmem
        exact hfresh b hb (by simp [heq])
      · rcases List.mem_cons.mp hb with rfl | hb
        · exact hseen
        · exact fun hmem => hfresh b hb (by simp [hmem])
      · rcases List.mem_cons.mp hb with rfl | hb
        · exact hid
        · exact hids b hb

/-! ### Operations -/

variable (keep : (kind : Kind) → kind.Record → kind.Record)

/-- Puts the records of new members under their names. -/
def putNew (kind : Kind) (as : List kind.Record) : Directory :=
  as.foldl (fun d a => d.putRecord (keep kind a)) d

@[simp] theorem tenants_putNew (as : List kind.Record) :
    (d.putNew keep kind as).tenants = d.tenants := by
  induction as generalizing d with
  | nil => rfl
  | cons a rest ih => exact ih (d.putRecord (keep kind a))

theorem records_putNew_ne (kind : Kind) {kind' : Kind} (h : kind' ≠ kind)
    (as : List kind.Record) :
    (d.putNew keep kind as).records kind' = d.records kind' := by
  induction as generalizing d with
  | nil => rfl
  | cons a rest ih =>
      exact (ih (d.putRecord (keep kind a))).trans (records_putRecord_ne h (keep kind a))

/-- The tenant of a new realm. -/
def newTenant (r : Realm) : Tenant where
  tokenExpiration := r.tokenExpiration
  refreshExpiration := r.refreshExpiration
  members
    | .client => r.clients.map name
    | .user => r.users.map name

/-- Creates a realm with the members in its payload. -/
def createRealm (payload : List UInt8) : Except StorageError (Realm × Directory) := do
  let r ← readRealm payload
  checkRealmName r.name
  if (d.tenants[r.name]?).isSome then .error (.duplicate "Realm" "name" r.name)
  else do
    checkNew .client (fun n => (d.records .client)[n]?) [] r.clients
    checkNew .user (fun n => (d.records .user)[n]?) [] r.users
    let d := d.putNew keep .client r.clients
    let d := d.putNew keep .user r.users
    return (r, d.putTenant r.name (newTenant r))

/-- Changes the expirations of a realm. -/
def updateRealm (n : String) (payload : List UInt8) : Except StorageError (Realm × Directory) := do
  let r ← readRealm payload
  if r.name ≠ n then .error (.renameRejected "Realm" n r.name)
  else do
    let t ← d.tenant n
    let t := { t with
      tokenExpiration := r.tokenExpiration
      refreshExpiration := r.refreshExpiration }
    return (t.realm n, d.putTenant n t)

/-- Puts a new record or a new version of one under its name. -/
def create (kind : Kind) (payload : List UInt8) :
    Except StorageError (kind.Record × Directory) := do
  let a ← readRecord kind payload
  let _ ← readText kind payload
  checkId ((d.records kind)[name a]?) a
  return (a, d.putRecord a)

/-- Puts a new version of a record in its place. -/
def update (kind : Kind) (n : String) (payload : List UInt8) :
    Except StorageError (kind.Record × Directory) := do
  let a ← readRecord kind payload
  let b ← d.record kind n
  if name a ≠ n then .error (.renameRejected kind.entity n (name a))
  else do
    checkId (some b) a
    let _ ← readText kind payload
    return (a, d.putRecord a)

/-- Removes a record and its name from every realm. -/
def delete (kind : Kind) (n : String) : Except StorageError (Unit × Directory) := do
  let _ ← d.record kind n
  return ((), d.dropRecord kind n)

/-- Makes a record a member of a realm. -/
def add (kind : Kind) (r n : String) : Except StorageError (Unit × Directory) := do
  let t ← d.tenant r
  let _ ← d.record kind n
  return ((), d.putTenant r (t.add kind n))

/-- Ends the membership of a name in a realm. -/
def remove (kind : Kind) (r n : String) : Except StorageError (Unit × Directory) := do
  let t ← d.tenant r
  if n ∈ t.members kind then return ((), d.putTenant r (t.remove kind n))
  else .error (.notMember kind.entity r n)

/-- Removes a realm; its members stay. -/
def deleteRealm (n : String) : Except StorageError (Unit × Directory) := do
  let _ ← d.tenant n
  return ((), d.dropTenant n)

/-- The realm of a name, without members. -/
def getRealm (n : String) : Except StorageError Realm := do
  let t ← d.tenant n
  return t.realm n

/-- The realm of a name with its members in full. -/
def getRealmWithMembers (n : String) : Except StorageError Realm := do
  let t ← d.tenant n
  return { t.realm n with clients := d.members .client t, users := d.members .user t }

/-- The record of a realm's member of a name. -/
def getFrom (kind : Kind) (r n : String) : Except StorageError kind.Record := do
  let t ← d.tenant r
  if n ∈ t.members kind then d.record kind n else .error (.notMember kind.entity r n)

/-- The record of a realm's first user of an identifier. -/
def getUserById (r : String) (i : Uuid) : Except StorageError User := do
  let t ← d.tenant r
  match (d.members .user t).find? (·.id = i) with
  | some u => .ok u
  | none => .error (.notFoundById "User" i)

/-- The records of all members of a kind. -/
def getAllFrom (kind : Kind) (r : String) : Except StorageError (List kind.Record) := do
  let t ← d.tenant r
  return d.members kind t

/-- The result of a look-up, which leaves everything as it is. -/
def unchanged {α : Type} (x : Except StorageError α) : Except StorageError (α × Directory) :=
  x.map fun a => (a, d)

/-- The answer that tells a result. -/
def answer {α : Type} (f : α → Answer) (x : Except StorageError (α × Directory)) :
    Except StorageError (Answer × Directory) :=
  x.map (Prod.map f fun d => d)

/-- The answer to an operation and the directory after it; a refused operation leaves
everything as it is. -/
def perform : Operation → Except StorageError (Answer × Directory)
  | .getRealm n => answer .realm (d.unchanged (d.getRealm n))
  | .getRealmWithMembers n => answer .realm (d.unchanged (d.getRealmWithMembers n))
  | .createRealm payload => answer .realm (d.createRealm keep payload)
  | .updateRealm n payload => answer .realm (d.updateRealm n payload)
  | .deleteRealm n => answer (fun _ => .done) (d.deleteRealm n)
  | .get kind n => answer (.one kind) (d.unchanged (d.record kind n))
  | .getFrom kind r n => answer (.one kind) (d.unchanged (d.getFrom kind r n))
  | .getUserById r i => answer (.one .user) (d.unchanged (d.getUserById r i))
  | .getAllFrom kind r => answer (.many kind) (d.unchanged (d.getAllFrom kind r))
  | .create kind payload => answer (.one kind) (d.create kind payload)
  | .update kind n payload => answer (.one kind) (d.update kind n payload)
  | .delete kind n => answer (fun _ => .done) (d.delete kind n)
  | .add kind r n => answer (fun _ => .done) (d.add kind r n)
  | .remove kind r n => answer (fun _ => .done) (d.remove kind r n)

/-- The answer to an operation and the directory that is left. -/
def step (keep : (kind : Kind) → kind.Record → kind.Record) (d : Directory) (op : Operation) :
    Except StorageError Answer × Directory :=
  match d.perform keep op with
  | .ok (answer, d) => (.ok answer, d)
  | .error e => (.error e, d)

/-! ### Documents without floating numbers -/

variable {keep keep' : (kind : Kind) → kind.Record → kind.Record} {d}

theorem putNew_congr (kind : Kind) {as : List kind.Record}
    (h : ∀ a ∈ as, keep kind a = keep' kind a) :
    d.putNew keep kind as = d.putNew keep' kind as := by
  induction as generalizing d with
  | nil => rfl
  | cons a rest ih =>
      show (d.putRecord (keep kind a)).putNew keep kind rest
        = (d.putRecord (keep' kind a)).putNew keep' kind rest
      rw [h a (by simp), ih fun a ha => h a (by simp [ha])]

theorem createRealm_congr {payload : List UInt8}
    (h : ∀ r, Realm.ofPayload payload = .ok r →
      (∀ c ∈ r.clients, keep .client c = keep' .client c) ∧
        ∀ u ∈ r.users, keep .user u = keep' .user u) :
    d.createRealm keep payload = d.createRealm keep' payload := by
  unfold createRealm
  rcases hr : readRealm payload with e | r
  · simp only [bind, Except.bind]
  obtain ⟨hclients, husers⟩ := h r (Json.eq_ok_of_mapError hr)
  simp only [bind, Except.bind, putNew_congr .client hclients,
    putNew_congr .user husers]

end Directory

/-- Holds for operations that bring no records with floating numbers into a new realm. -/
def Operation.isExact : Operation → Bool
  | .createRealm payload =>
    match Realm.ofPayload payload with
    | .ok r => r.clients.all (Kind.isExact .client) && r.users.all (Kind.isExact .user)
    | .error _ => true
  | _ => true

namespace Directory

/-- Without floating numbers, records are kept as they come. -/
theorem step_reread {op : Operation} (h : op.isExact = true) (d : Directory) :
    step Kind.reread d op = step (fun _ a => a) d op := by
  cases op with
  | createRealm payload =>
      have hcreate : d.createRealm Kind.reread payload = d.createRealm (fun _ a => a) payload := by
        refine createRealm_congr ?_
        intro r hr
        rw [Operation.isExact, hr, Bool.and_eq_true, List.all_eq_true, List.all_eq_true] at h
        exact ⟨fun c hc => Kind.reread_eq_self (h.1 c hc),
          fun u hu => Kind.reread_eq_self (h.2 u hu)⟩
      rw [step, step, perform, perform, hcreate]
  | _ => rfl

/-! ### Sound directories -/

/-- Realms have names that realms may have, and list every member once; records have the
names that they are found by, and every listed member has one. -/
structure WellFormed (d : Directory) : Prop where
  realms : ∀ (n : String) (t : Tenant), d.tenants[n]? = some t → isRealmName n = true
  lists : ∀ (n : String) (t : Tenant) (kind : Kind), d.tenants[n]? = some t →
    (t.members kind).Nodup
  known : ∀ (n : String) (t : Tenant) (kind : Kind), d.tenants[n]? = some t →
    ∀ m ∈ t.members kind, ∃ a, (d.records kind)[m]? = some a
  records : ∀ (kind : Kind) (n : String) a, (d.records kind)[n]? = some a → name a = n

variable {d : Directory} {kind : Kind}

theorem WellFormed.putRecord (h : d.WellFormed) (a : kind.Record) : (d.putRecord a).WellFormed where
  realms := h.realms
  lists := h.lists
  known n t kind' ht m hm := by
    obtain ⟨b, hb⟩ := h.known n t kind' ht m hm
    by_cases hkind : kind' = kind
    · subst hkind
      rw [getElem?_putRecord]
      split_ifs
      · exact ⟨a, rfl⟩
      · exact ⟨b, hb⟩
    · rw [records_putRecord_ne hkind]
      exact ⟨b, hb⟩
  records kind' n b hb := by
    by_cases hkind : kind' = kind
    · subst hkind
      rw [getElem?_putRecord] at hb
      split_ifs at hb with hname
      · cases hb
        exact hname
      · exact h.records kind' n b hb
    · rw [records_putRecord_ne hkind] at hb
      exact h.records kind' n b hb

/-! ### New members -/

/-- Where names are different, only identifiers decide whether new members are accepted. -/
theorem checkNew_eq_forM {known : String → Option kind.Record} {seen : List String}
    {as : List kind.Record} (hnodup : (as.map name).Nodup) (hseen : ∀ a ∈ as, name a ∉ seen) :
    checkNew kind known seen as = as.forM fun a => checkId (known (name a)) a := by
  induction as generalizing seen with
  | nil => rfl
  | cons a rest ih =>
      obtain ⟨hfresh, hrest⟩ := List.nodup_cons.mp hnodup
      have hseen' : ∀ b ∈ rest, name b ∉ name a :: seen := by
        intro b hb hmem
        rcases List.mem_cons.mp hmem with heq | hmem
        · exact hfresh (heq ▸ List.mem_map_of_mem hb)
        · exact hseen b (by simp [hb]) hmem
      rw [checkNew, if_neg (hseen a (by simp)), ih hrest hseen']
      rfl

/-- Where names are different, the record of a name that was not put in is as it was. -/
theorem getElem?_putNew_of_not_mem {as : List kind.Record} {n : String}
    (hn : n ∉ as.map name) :
    ((d.putNew (fun _ a => a) kind as).records kind)[n]? = (d.records kind)[n]? := by
  induction as generalizing d with
  | nil => rfl
  | cons a rest ih =>
      have hrest : n ∉ rest.map name := fun hmem => hn (List.mem_cons_of_mem _ hmem)
      refine (ih (d := d.putRecord a) hrest).trans ?_
      rw [getElem?_putRecord, if_neg]
      rintro rfl
      exact hn List.mem_cons_self

theorem getElem?_putNew_of_mem {as : List kind.Record} (hnodup : (as.map name).Nodup)
    {a : kind.Record} (ha : a ∈ as) :
    ((d.putNew (fun _ a => a) kind as).records kind)[name a]? = some a := by
  induction as generalizing d with
  | nil => cases ha
  | cons b rest ih =>
      obtain ⟨hfresh, hrest⟩ := List.nodup_cons.mp hnodup
      rcases List.mem_cons.mp ha with rfl | ha
      · refine (getElem?_putNew_of_not_mem (d := d.putRecord a) hfresh).trans ?_
        rw [getElem?_putRecord, if_pos rfl]
      · exact ih (d := d.putRecord b) hrest ha

end Directory

/-! ### Histories -/

/-- The answers to operations that come one after the other. -/
def answers {σ : Type} (step : σ → Operation → Except StorageError Answer × σ) (s : σ) :
    List Operation → List (Except StorageError Answer)
  | [] => []
  | op :: rest => (step s op).1 :: answers step (step s op).2 rest

end IdentityStore
