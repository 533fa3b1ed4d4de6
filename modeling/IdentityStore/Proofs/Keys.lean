/-
No two keys of a namespace are the same.

The keys of records and of realms tell their kinds apart right behind the namespace,
and a membership list has the key that a realm would have whose name ends in the
suffix of the list.  No realm has such a name, so a realm and a list never share a
key, and a pattern that looks for the lists of a kind finds these and nothing else:
`isMatch_membersPattern_iff`.  Whatever a namespace keeps has thus a key of its own, also
where names hold the words and lines that keys are made of: `slots_apart_and_found`.

Two namespaces share a key only if one of them is itself a key of the other, as `fe.realm_eu`
is a key of `fe`: `apart_iff`.
-/
import IdentityStore.Keys
import IdentityStore.Proofs.Store.Glob
import Mathlib.Tactic.Common

namespace IdentityStore

/-! ### Names of realms -/

/-- A realm name is one that is not empty and ends in no suffix of a list. -/
theorem isRealmName_iff {name : String} :
    isRealmName name = true ↔
      name ≠ "" ∧ ∀ (kind : Kind) (r : String), name ≠ r ++ kind.suffix := by
  have hsuffix : ∀ kind : Kind, kind.suffix.toList.isSuffixOf name.toList = true ↔
      ∃ r : String, name = r ++ kind.suffix := by
    intro kind
    rw [List.isSuffixOf_iff_suffix]
    constructor
    · rintro ⟨r, hr⟩
      refine ⟨String.ofList r, ?_⟩
      rw [← String.toList_inj, String.toList_append, String.toList_ofList, hr]
    · rintro ⟨r, rfl⟩
      exact ⟨r.toList, by rw [String.toList_append]⟩
  unfold isRealmName
  simp only [Bool.and_eq_true, decide_eq_true_eq, Bool.not_eq_true', ← Bool.not_eq_true, hsuffix,
    not_exists]
  constructor
  · rintro ⟨⟨hne, hclient⟩, huser⟩
    refine ⟨hne, fun kind => ?_⟩
    cases kind
    · exact hclient
    · exact huser
  · rintro ⟨hne, h⟩
    exact ⟨⟨hne, h .client⟩, h .user⟩

theorem checkRealmName_eq_ok_iff {name : String} {u : Unit} :
    checkRealmName name = .ok u ↔ isRealmName name = true := by
  unfold checkRealmName
  split_ifs with h
  · exact ⟨fun _ => h, fun _ => rfl⟩
  · exact ⟨fun hok => (nomatch hok), fun hname => absurd hname h⟩

/-! ### Keys -/

namespace KeySpace

variable (keys : KeySpace) {kind kind' : Kind} {m n r r' : String}

theorem members_eq_realm (kind : Kind) (r : String) :
    keys.members kind r = keys.realm (r ++ kind.suffix) := by
  rw [members, realm, realm, String.append_assoc]

theorem realm_inj (h : keys.realm m = keys.realm n) : m = n :=
  (String.append_right_inj _).mp h

/-- The characters of the key of a record. -/
theorem toList_record (kind : Kind) (n : String) :
    (keys.record kind n).toList
      = keys.root.toList ++ '.' :: (kind.label.toList ++ '_' :: n.toList) := by
  simp [record, String.toList_append]

/-- The characters of the key of a realm. -/
theorem toList_realm (n : String) :
    (keys.realm n).toList = keys.root.toList ++ '.' :: ("realm".toList ++ '_' :: n.toList) := by
  simp [realm, String.toList_append]

theorem record_inj (h : keys.record kind m = keys.record kind' n) : kind = kind' ∧ m = n := by
  have hlist := congrArg String.toList h
  rw [toList_record, toList_record, List.append_cancel_left_eq] at hlist
  cases kind <;> cases kind'
  · exact ⟨rfl, String.toList_inj.mp (by simpa [Kind.label] using hlist)⟩
  · simp [Kind.label] at hlist
  · simp [Kind.label] at hlist
  · exact ⟨rfl, String.toList_inj.mp (by simpa [Kind.label] using hlist)⟩

theorem record_ne_realm : keys.record kind m ≠ keys.realm n := by
  intro h
  have hlist := congrArg String.toList h
  rw [toList_record, toList_realm, List.append_cancel_left_eq] at hlist
  cases kind <;> simp [Kind.label] at hlist

theorem record_ne_members : keys.record kind m ≠ keys.members kind' r := by
  rw [members_eq_realm]
  exact keys.record_ne_realm

theorem realm_ne_members (h : isRealmName n = true) : keys.realm n ≠ keys.members kind r := by
  rw [members_eq_realm]
  exact fun heq => (isRealmName_iff.mp h).2 kind r (keys.realm_inj heq)

/-- Two names with suffixes of lists are the same only if the names and suffixes are. -/
theorem append_suffix_inj (h : r ++ kind.suffix = r' ++ kind'.suffix) : kind = kind' ∧ r = r' := by
  have hback := congrArg (fun s => s.toList.reverse) h
  cases kind <;> cases kind'
  · exact ⟨rfl, (String.append_left_inj _).mp h⟩
  · simp [Kind.suffix, Kind.label, String.toList_append] at hback
  · simp [Kind.suffix, Kind.label, String.toList_append] at hback
  · exact ⟨rfl, (String.append_left_inj _).mp h⟩

theorem members_inj (h : keys.members kind r = keys.members kind' r') : kind = kind' ∧ r = r' := by
  rw [members_eq_realm, members_eq_realm] at h
  exact append_suffix_inj (keys.realm_inj h)

/-- **The pattern of the lists of a kind** finds these lists and nothing else. -/
theorem isMatch_membersPattern_iff {key : String} :
    Glob.isMatch (keys.membersPattern kind) key = true ↔ ∃ r, key = keys.members kind r := by
  have hroot : Glob.star ∉ keys.root.toList ++ '.' :: ("realm".toList ++ ['_']) := by
    have hplain := keys.plain
    simp only [isNamespace, Bool.and_eq_true, List.all_eq_true] at hplain
    intro hmem
    rcases List.mem_append.mp hmem with hmem | hmem
    · exact absurd (hplain.2 _ hmem) (by decide)
    · exact absurd hmem (by decide)
  have hsuffix : Glob.star ∉ kind.suffix.toList := by cases kind <;> decide
  have hpattern : (keys.membersPattern kind).toList
      = (keys.root.toList ++ '.' :: ("realm".toList ++ ['_'])) ++
        Glob.star :: kind.suffix.toList := by
    rw [membersPattern, members, String.toList_append, toList_realm]
    simp [Glob.star]
  have hmembers : ∀ r : String, (keys.members kind r).toList
      = (keys.root.toList ++ '.' :: ("realm".toList ++ ['_'])) ++
        (r.toList ++ kind.suffix.toList) := by
    intro r
    rw [members, String.toList_append, toList_realm]
    simp
  rw [Glob.isMatch_star_iff hroot hsuffix hpattern]
  constructor
  · rintro ⟨middle, hmiddle⟩
    refine ⟨String.ofList middle, String.toList_inj.mp ?_⟩
    rw [hmiddle, hmembers, @String.toList_ofList middle]
  · rintro ⟨r, rfl⟩
    exact ⟨r.toList, hmembers r⟩

theorem isMatch_members (kind : Kind) (r : String) :
    Glob.isMatch (keys.membersPattern kind) (keys.members kind r) = true :=
  keys.isMatch_membersPattern_iff.mpr ⟨r, rfl⟩

/-! ### All that a namespace keeps -/

/-- What is kept under a key of its own. -/
inductive Slot where
  | realm (name : String)
  | record (kind : Kind) (name : String)
  | members (kind : Kind) (realm : String)

namespace Slot

/-- The key under which it is kept. -/
def key : Slot → String
  | realm n => keys.realm n
  | record kind n => keys.record kind n
  | members kind r => keys.members kind r

/-- Holds unless it is a realm whose name no realm may have. -/
def isNamed : Slot → Bool
  | realm n => isRealmName n
  | record .. | members .. => true

end Slot

theorem slot_inj {x y : Slot} (hx : x.isNamed = true) (hy : y.isNamed = true)
    (h : x.key keys = y.key keys) : x = y := by
  cases x with
  | realm m =>
      cases y with
      | realm n => rw [keys.realm_inj h]
      | record kind n => exact absurd h.symm keys.record_ne_realm
      | members kind r => exact absurd h (keys.realm_ne_members hx)
  | record kind m =>
      cases y with
      | realm n => exact absurd h keys.record_ne_realm
      | record kind' n =>
          obtain ⟨hkind, hname⟩ := keys.record_inj h
          rw [hkind, hname]
      | members kind' r => exact absurd h keys.record_ne_members
  | members kind r =>
      cases y with
      | realm n => exact absurd h.symm (keys.realm_ne_members hy)
      | record kind' n => exact absurd h.symm keys.record_ne_members
      | members kind' r' =>
          obtain ⟨hkind, hrealm⟩ := keys.members_inj h
          rw [hkind, hrealm]

/-- **Whatever a namespace keeps has a key of its own**, and the pattern of the lists of a kind
finds these lists and nothing else: no realm, no record and no list of the other kind. -/
theorem slots_apart_and_found (keys : KeySpace) :
    (∀ x y : Slot, x.isNamed = true → y.isNamed = true → x.key keys = y.key keys → x = y) ∧
    (∀ kind key, Glob.isMatch (keys.membersPattern kind) key = true ↔
      ∃ r, key = (Slot.members kind r).key keys) ∧
    ∀ kind (x : Slot), x.isNamed = true → (∀ r, x ≠ .members kind r) →
      Glob.isMatch (keys.membersPattern kind) (x.key keys) = false := by
  refine ⟨fun x y => keys.slot_inj, fun kind key => keys.isMatch_membersPattern_iff, ?_⟩
  intro kind x hx hne
  rw [← Bool.not_eq_true, keys.isMatch_membersPattern_iff]
  rintro ⟨r, hr⟩
  exact hne r (keys.slot_inj hx rfl hr)

/-- The list of a realm has another key than a realm whose name goes on behind the suffix of the
list, and is found while the realm is not. -/
theorem slots_apart_and_found_suffix :
    ((Slot.realm "a_users_b").isNamed = true ∧ (Slot.members .user "a").isNamed = true) ∧
      (Slot.realm "a_users_b").key default ≠ (Slot.members .user "a").key default ∧
      Glob.isMatch (default.membersPattern .user) ((Slot.members .user "a").key default) = true ∧
      Glob.isMatch (default.membersPattern .user) ((Slot.realm "a_users_b").key default)
        = false := by
  have hrealm : (Slot.realm "a_users_b").isNamed = true := by decide
  obtain ⟨hapart, hfound, hothers⟩ := slots_apart_and_found default
  refine ⟨⟨hrealm, rfl⟩, fun h => ?_, (hfound .user _).mpr ⟨"a", rfl⟩,
    hothers .user _ hrealm fun r h => by cases h⟩
  cases hapart _ _ hrealm rfl h

/-! ### Two namespaces -/

/-- The keys that are made of a namespace. -/
def Owns (key : String) : Prop :=
  (∃ n, key = keys.realm n) ∨ ∃ kind n, key = keys.record kind n

/-- Two namespaces of which neither is the other, or a key of the other. -/
def Apart (a b : KeySpace) : Prop := a.root ≠ b.root ∧ ¬ a.Owns b.root ∧ ¬ b.Owns a.root

theorem Apart.symm {a b : KeySpace} (h : a.Apart b) : b.Apart a :=
  ⟨h.1.symm, h.2.2, h.2.1⟩

theorem owns_realm (n : String) : keys.Owns (keys.realm n) := .inl ⟨n, rfl⟩

theorem owns_record (kind : Kind) (n : String) : keys.Owns (keys.record kind n) :=
  .inr ⟨kind, n, rfl⟩

theorem owns_members (kind : Kind) (r : String) : keys.Owns (keys.members kind r) := by
  rw [members_eq_realm]
  exact keys.owns_realm _

/-- The words for what has a key. -/
def words : List String := ["realm", "client", "user"]

/-- A key is the namespace, a point, one of three words, a line and a name. -/
theorem owns_iff {key : String} :
    keys.Owns key ↔ ∃ word ∈ words, ∃ n : List Char,
      key.toList = keys.root.toList ++ '.' :: (word.toList ++ '_' :: n) := by
  constructor
  · rintro (⟨n, rfl⟩ | ⟨kind, n, rfl⟩)
    · exact ⟨"realm", by simp [words], n.toList, keys.toList_realm n⟩
    · refine ⟨kind.label, ?_, n.toList, keys.toList_record kind n⟩
      cases kind <;> simp [words, Kind.label]
  · rintro ⟨word, hword, n, hkey⟩
    simp only [words, List.mem_cons, List.not_mem_nil, or_false] at hword
    rcases hword with rfl | rfl | rfl
    · refine .inl ⟨String.ofList n, String.toList_inj.mp ?_⟩
      rw [hkey, toList_realm, @String.toList_ofList n]
    · refine .inr ⟨.client, String.ofList n, String.toList_inj.mp ?_⟩
      rw [hkey, toList_record, @String.toList_ofList n, Kind.label]
    · refine .inr ⟨.user, String.ofList n, String.toList_inj.mp ?_⟩
      rw [hkey, toList_record, @String.toList_ofList n, Kind.label]

/-- A key that goes on is a key. -/
theorem Owns.append {key : String} (h : keys.Owns key) (more : String) :
    keys.Owns (key ++ more) := by
  obtain ⟨word, hword, n, hkey⟩ := keys.owns_iff.mp h
  refine keys.owns_iff.mpr ⟨word, hword, n ++ more.toList, ?_⟩
  rw [String.toList_append, hkey]
  simp

/-- Where a word and a line begin a text that has a point behind some front, the front begins
with the word and the line: no point stands in a word. -/
theorem front_of_point {word front back n : List Char} (hword : '.' ∉ word)
    (h : word ++ '_' :: n = front ++ '.' :: back) : ∃ more, front = word ++ '_' :: more := by
  rcases List.append_eq_append_iff.mp h with ⟨rest, rfl, hrest⟩ | ⟨rest, rfl, hrest⟩
  · cases rest with
    | nil => simp at hrest
    | cons c more =>
        obtain ⟨rfl, -⟩ := List.cons.inj hrest
        exact ⟨more, rfl⟩
  · cases rest with
    | nil => simp at hrest
    | cons c more =>
        obtain ⟨rfl, -⟩ := List.cons.inj hrest
        simp at hword

/-- If one namespace begins another and they share a key, they are the same, or the longer one
is a key of the shorter. -/
theorem owns_root_of_shared {a b : KeySpace} {key : String} (ha : a.Owns key) (hb : b.Owns key)
    {front : List Char} (hfront : b.root.toList = a.root.toList ++ front) :
    a.root = b.root ∨ a.Owns b.root := by
  obtain ⟨word, hword, n, hkey⟩ := a.owns_iff.mp ha
  obtain ⟨word', -, n', hkey'⟩ := b.owns_iff.mp hb
  rw [hkey, hfront, List.append_assoc, List.append_cancel_left_eq] at hkey'
  cases front with
  | nil =>
      rw [List.append_nil] at hfront
      exact .inl (String.toList_inj.mp hfront.symm)
  | cons c front =>
      obtain ⟨rfl, hrest⟩ := List.cons.inj hkey'
      have hpoint : '.' ∉ word.toList := by
        simp only [words, List.mem_cons, List.not_mem_nil, or_false] at hword
        rcases hword with rfl | rfl | rfl <;> decide
      obtain ⟨more, rfl⟩ := front_of_point hpoint hrest
      exact .inr (a.owns_iff.mpr ⟨word, hword, more, hfront⟩)

/-- **Two namespaces share no key** if and only if they are apart. -/
theorem apart_iff {a b : KeySpace} : a.Apart b ↔ ∀ key, a.Owns key → ¬ b.Owns key := by
  constructor
  · rintro ⟨hne, hab, hba⟩ key ha hb
    obtain ⟨word, -, n, hkey⟩ := a.owns_iff.mp ha
    obtain ⟨word', -, n', hkey'⟩ := b.owns_iff.mp hb
    rcases List.append_eq_append_iff.mp (hkey.symm.trans hkey') with ⟨front, hroot, -⟩ | ⟨front, hroot, -⟩
    · exact (owns_root_of_shared ha hb hroot).elim hne hab
    · exact (owns_root_of_shared hb ha hroot).elim hne.symm hba
  · intro h
    have happend : ∀ keys : KeySpace, keys.Owns (keys.root ++ ".realm_") :=
      fun keys => .inl ⟨"", by simp [realm]⟩
    refine ⟨fun hroot => h _ (happend a) (hroot ▸ happend b), fun hab => ?_, fun hba => ?_⟩
    · exact h _ (Owns.append a hab ".realm_") (happend b)
    · exact h _ (happend a) (Owns.append b hba ".realm_")

end KeySpace

end IdentityStore
