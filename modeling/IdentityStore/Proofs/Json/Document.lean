/-
Documents of any shape are read back.

What a reader yields is never arbitrary: whole numbers fit 64 bits, floating numbers
are numbers of that format, members stand in rising order, and nothing lies deeper
than allowed.  `Value.Fits` says this of a document, and `fits_of_value` that every
document that is read is of this kind.

For these documents writing and reading is `reread`, which leaves the document as it is
but for its floating numbers: `reads_write`.  A document without floating numbers is
read back as itself.
-/
import IdentityStore.Proofs.Json.Written

namespace IdentityStore.Json

/-! ### Documents that are read -/

/-- Holds for the numbers that are read. -/
def Number.Fits : Number → Prop
  | .integer n => FitsWord n
  | .float x => x.Finite

/-- Holds for the documents that are read with some levels left. -/
inductive Value.Fits : Nat → Value → Prop
  | null (levels : Nat) : Fits levels .null
  | boolean (levels : Nat) (b : Bool) : Fits levels (.boolean b)
  | number (levels : Nat) {n : Number} : n.Fits → Fits levels (.number n)
  | text (levels : Nat) (s : String) : Fits levels (.text s)
  | array {levels : Nat} {items : List Value} :
      (∀ v ∈ items, Fits levels v) → Fits (levels + 1) (.array items)
  | object {levels : Nat} {members : List (String × Value)}
      (rising : (members.map Prod.fst).Pairwise (· < ·)) :
      (∀ m ∈ members, Fits levels m.2) → Fits (levels + 1) (.object members)

/-- More levels do no harm. -/
theorem Value.Fits.mono {levels levels' : Nat} {v : Value} (h : v.Fits levels)
    (hle : levels ≤ levels') : v.Fits levels' := by
  induction h generalizing levels' with
  | null => exact .null _
  | boolean _ b => exact .boolean _ b
  | number _ hn => exact .number _ hn
  | text _ s => exact .text _ s
  | array _ ih =>
      obtain ⟨k, rfl⟩ := Nat.exists_eq_add_of_lt (Nat.lt_of_succ_le hle)
      exact .array fun v hv => ih v hv (by omega)
  | object hrising _ ih =>
      obtain ⟨k, rfl⟩ := Nat.exists_eq_add_of_lt (Nat.lt_of_succ_le hle)
      exact .object hrising fun m hm => ih m hm (by omega)

/-! ### What is read back -/

/-- The number that the text of a number is read as. -/
def Number.reread : Number → Number
  | .integer n => .integer n
  | .float x => .float x.reread

mutual

/-- The document that the text of a document is read as. -/
def Value.reread : Value → Value
  | .number n => .number n.reread
  | .array items => .array (rereadItems items)
  | .object members => .object (rereadMembers members)
  | v => v

/-- The items that the texts of items are read as. -/
def rereadItems : List Value → List Value
  | [] => []
  | v :: rest => v.reread :: rereadItems rest

/-- The members that the texts of members are read as. -/
def rereadMembers : List (String × Value) → List (String × Value)
  | [] => []
  | (name, v) :: rest => (name, v.reread) :: rereadMembers rest

end

theorem rereadItems_eq (items : List Value) : rereadItems items = items.map Value.reread := by
  induction items with
  | nil => rfl
  | cons v rest ih => rw [rereadItems, ih, List.map_cons]

theorem rereadMembers_eq (members : List (String × Value)) :
    rereadMembers members = members.map fun m => (m.1, m.2.reread) := by
  induction members with
  | nil => rfl
  | cons m rest ih => rw [rereadMembers, ih, List.map_cons]

theorem writeItems_eq (items : List Value) : writeItems items = items.map Value.write := by
  induction items with
  | nil => rfl
  | cons v rest ih => rw [writeItems, ih, List.map_cons]

theorem writeMembers_eq (members : List (String × Value)) :
    writeMembers members = members.map fun m => (m.1, m.2.write) := by
  induction members with
  | nil => rfl
  | cons m rest ih => rw [writeMembers, ih, List.map_cons]

/-! ### Reading back -/

/-- How a document reads one member of an object. -/
def readMember (levels : Nat) (name : String) (ms : List (String × Value)) :
    Reader (List (String × Value)) := fun s => do
  let (v, s) ← value levels (← readColon s)
  return (insertMember name v ms, s)

/-- The words of documents, their first letters apart, and what they stand for. -/
def words : List (Char × List Char × Value) :=
  [('n', "ull".toList, .null), ('t', "rue".toList, .boolean true),
    ('f', "alse".toList, .boolean false)]

theorem value_word (levels : Nat) {c : Char} {cs : List Char} {v : Value}
    (h : (c, cs, v) ∈ words) (s : List UInt8) :
    value levels (byte c :: s) = (readWord cs s).map (v, ·) := by
  simp only [words, List.mem_cons, List.not_mem_nil, or_false, Prod.mk.injEq] at h
  rcases h with ⟨rfl, rfl, rfl⟩ | ⟨rfl, rfl, rfl⟩ | ⟨rfl, rfl, rfl⟩
  all_goals
    rw [value.eq_def]
    dsimp only
    rw [skipBlank_cons (by decide)]
    rfl

theorem value_openBrace (levels : Nat) (s : List UInt8) :
    value (levels + 1) (openBrace :: s)
      = (membersOf (readMember levels) [] s).map fun m => (.object m.1, m.2) := by
  rw [value, skipBlank_cons (by decide)]
  rfl

theorem value_openBracket (levels : Nat) (s : List UInt8) :
    value (levels + 1) (openBracket :: s)
      = (itemsOf (value levels) s).map fun a => (.array a.1, a.2) := by
  rw [value, skipBlank_cons (by decide)]
  rfl

theorem value_quotationMark (levels : Nat) (s : List UInt8) :
    value levels (quotationMark :: s) = (readText s).map fun t => (.text t.1, t.2) := by
  rw [value.eq_def]
  dsimp only
  rw [skipBlank_cons (by decide)]
  rfl

theorem value_minus (levels : Nat) (s : List UInt8) :
    value levels (minus :: s) = (readNumber true s).map fun n => (.number n.1, n.2) := by
  rw [value.eq_def]
  dsimp only
  rw [skipBlank_cons (by decide)]
  rfl

theorem value_digit (levels : Nat) {b : UInt8} (hb : isDigit b = true) (s : List UInt8) :
    value levels (b :: s) = (readNumber false (b :: s)).map fun n => (.number n.1, n.2) := by
  rw [value.eq_def]
  dsimp only
  rw [skipBlank_cons (begins_of_isDigit hb).1]
  dsimp only
  rw [if_neg (ne_of_isDigit hb rfl), if_neg (ne_of_isDigit hb rfl), if_neg (ne_of_isDigit hb rfl),
    if_neg (ne_of_isDigit hb rfl), if_pos hb]

/-- A word is read back. -/
theorem reads_word (levels : Nat) {c : Char} {cs : List Char} {v : Value} {w : String}
    (h : (c, cs, v) ∈ words)
    (hw : Utf8.ofString w = byte c :: cs.map byte) : Reads (value levels) w v := by
  have hb : Begins (byte c) := by
    simp only [words, List.mem_cons, List.not_mem_nil, or_false, Prod.mk.injEq] at h
    rcases h with ⟨rfl, -⟩ | ⟨rfl, -⟩ | ⟨rfl, -⟩ <;> exact ⟨by decide, by decide⟩
  refine ⟨⟨byte c, _, hw, hb⟩, fun {rest} _ => ?_⟩
  rw [hw, List.cons_append, value_word levels h, readWord_map_byte]
  rfl

/-- A number is read back once it is read back behind its sign. -/
theorem reads_number (levels : Nat) {w : String} {n : Number} {negative : Bool}
    {bytes : List UInt8} (hw : Utf8.ofString w = (if negative then [minus] else []) ++ bytes)
    (hd : ∃ b bs, bytes = b :: bs ∧ isDigit b = true)
    (hread : ∀ {rest}, Ends rest → readNumber negative (bytes ++ rest) = .ok (n, rest)) :
    Reads (value levels) w (.number n) := by
  refine ⟨starts_signed hw hd, fun {rest} hr => ?_⟩
  obtain ⟨b, bs, rfl, hb⟩ := hd
  have h := hread hr
  rw [hw]
  cases negative
  · rw [if_neg (by decide), List.nil_append, List.cons_append, value_digit levels hb,
      ← List.cons_append, h]
    rfl
  · rw [if_pos rfl, List.singleton_append, List.cons_append, value_minus, h]
    rfl

theorem reads_write_number (levels : Nat) {n : Number} (h : n.Fits) :
    Reads (value levels) n.write (.number n.reread) := by
  cases n with
  | integer n => exact reads_number levels (ofString_toString' n) (toDigits_cons _) fun hr =>
      readNumber_toDigits h hr
  | float x => exact reads_number levels x.ofString_render x.encode_parts_cons fun hr =>
      Binary64.readNumber_parts h hr

/-- A name that comes after all others is put at the end. -/
theorem insertMember_last {name : String} {v : Value} {ms : List (String × Value)}
    (h : ∀ m ∈ ms, m.1 < name) : insertMember name v ms = ms ++ [(name, v)] := by
  induction ms with
  | nil => rfl
  | cons m rest ih =>
      obtain ⟨n, w⟩ := m
      have hn : n < name := h (n, w) (by simp)
      rw [insertMember, if_neg (String.lt_asymm hn),
        if_neg (String.ne_of_lt hn).symm, ih fun m hm => h m (by simp [hm])]
      rfl

/-- A written list is read as the list of what its items are read as. -/
theorem reads_array {levels : Nat} {ws : List String} {items : List Value}
    (h : List.Forall₂ (Reads (value levels)) ws items) :
    Reads (value (levels + 1)) (writeList ws) (.array items) := by
  refine ⟨starts_writeList _, fun {rest} _ => ?_⟩
  rw [ofString_writeList, value_openBracket, itemsOf_written h]
  rfl

theorem reads_arrayOf {levels : Nat} {as : List α} {write : α → String} {document : α → Value}
    (h : ∀ a ∈ as, Reads (value levels) (write a) (document a)) :
    Reads (value (levels + 1)) (writeList (as.map write)) (.array (as.map document)) := by
  refine reads_array ?_
  rw [List.forall₂_map_left_iff, List.forall₂_map_right_iff, List.forall₂_same]
  exact h

/-- The members of a written object are read in their places. -/
theorem steps_rising {levels : Nat} {ms : List (String × Value)}
    (h : ∀ m ∈ ms, Reads (value levels) m.2.write m.2.reread) :
    ∀ acc : List (String × Value), (acc.map Prod.fst ++ ms.map Prod.fst).Pairwise (· < ·) →
      Steps (readMember levels) acc (ms.map fun m => (m.1, m.2.write))
        (acc ++ ms.map fun m => (m.1, m.2.reread)) := by
  induction ms with
  | nil =>
      intro acc _
      rw [List.map_nil, List.map_nil, List.append_nil]
      exact .nil acc
  | cons m rest ih =>
      intro acc hrising
      have hm := h m (by simp)
      have hlast : ∀ a ∈ acc, a.1 < m.1 := fun a ha =>
        (List.pairwise_append.mp hrising).2.2 a.1 (List.mem_map_of_mem ha) m.1 (by simp)
      have hmore := ih (fun m hm => h m (by simp [hm])) (acc ++ [(m.1, m.2.reread)]) (by
        rw [List.map_append, List.append_assoc]
        exact hrising)
      rw [List.append_assoc] at hmore
      refine .cons hm.starts (fun hr => ?_) hmore
      rw [readMember, readColon_colon]
      simp only [bind, Except.bind, hm.reads hr, insertMember_last hlast]
      rfl

/-- **A document is read back** but for its floating numbers, which are what their texts
are read as. -/
theorem reads_write {levels : Nat} {v : Value} (h : v.Fits levels) :
    Reads (value levels) v.write v.reread := by
  induction h with
  | null levels => exact reads_word levels (.head _) rfl
  | boolean levels b =>
      cases b
      · exact reads_word levels (.tail _ (.tail _ (.head _))) rfl
      · exact reads_word levels (.tail _ (.head _)) rfl
  | number levels hn => exact reads_write_number levels hn
  | text levels s =>
      refine ⟨starts_writeText s, fun {rest} _ => ?_⟩
      rw [Value.write, ofString_writeText_append, value_quotationMark, readText_escapes]
      rfl
  | @array levels items _ ih =>
      rw [Value.write, Value.reread, writeItems_eq, rereadItems_eq]
      exact reads_arrayOf ih
  | @object levels members hrising _ ih =>
      rw [Value.write, Value.reread, writeMembers_eq, rereadMembers_eq]
      refine ⟨starts_writeObject _, fun {rest} _ => ?_⟩
      rw [ofString_writeObject, value_openBrace, membersOf_written (steps_rising ih [] hrising)]
      rfl

/-! ### Documents without floating numbers -/

mutual

/-- Holds for documents without floating numbers. -/
def Value.isExact : Value → Bool
  | .number (.float _) => false
  | .array items => exactItems items
  | .object members => exactMembers members
  | _ => true

/-- Holds for items without floating numbers. -/
def exactItems : List Value → Bool
  | [] => true
  | v :: rest => v.isExact && exactItems rest

/-- Holds for members without floating numbers. -/
def exactMembers : List (String × Value) → Bool
  | [] => true
  | (_, v) :: rest => v.isExact && exactMembers rest

end

mutual

/-- A document without floating numbers is read back as itself. -/
theorem Value.reread_eq_self : (v : Value) → v.isExact = true → v.reread = v
  | .null, _ => rfl
  | .boolean _, _ => rfl
  | .number (.integer _), _ => rfl
  | .text _, _ => rfl
  | .array items, h => by
    rw [Value.reread, rereadItems_eq_self items (by simpa [Value.isExact] using h)]
  | .object members, h => by
    rw [Value.reread, rereadMembers_eq_self members (by simpa [Value.isExact] using h)]

theorem rereadItems_eq_self :
    (items : List Value) → exactItems items = true → rereadItems items = items
  | [], _ => rfl
  | v :: rest, h => by
    obtain ⟨hv, hrest⟩ := Bool.and_eq_true_iff.mp h
    rw [rereadItems, v.reread_eq_self hv, rereadItems_eq_self rest hrest]

theorem rereadMembers_eq_self :
    (members : List (String × Value)) → exactMembers members = true →
      rereadMembers members = members
  | [], _ => rfl
  | (name, v) :: rest, h => by
    obtain ⟨hv, hrest⟩ := Bool.and_eq_true_iff.mp h
    rw [rereadMembers, v.reread_eq_self hv, rereadMembers_eq_self rest hrest]

end

/-- **A document without floating numbers is read back.** -/
theorem reads_exact {levels : Nat} {v : Value} (h : v.Fits levels) (hexact : v.isExact = true) :
    Reads (value levels) v.write v := by
  have hread := reads_write h
  rwa [v.reread_eq_self hexact] at hread

/-! ### First bytes and members -/

theorem head_signed_ne {w : String} {negative : Bool} {bytes : List UInt8}
    (h : Utf8.ofString w = (if negative then [minus] else []) ++ bytes)
    (hd : ∃ b bs, bytes = b :: bs ∧ isDigit b = true) :
    (Utf8.ofString w).head? ≠ some (byte 'n') := by
  obtain ⟨b, bs, rfl, hb⟩ := hd
  rw [h]
  cases negative
  · exact fun hn => ne_of_isDigit hb rfl (Option.some.inj hn)
  · exact fun hn => absurd (Option.some.inj hn) (by decide)

/-- Only `null` begins as `null` does. -/
theorem head_write_ne {v : Value} (h : v ≠ .null) :
    (Utf8.ofString v.write).head? ≠ some (byte 'n') := by
  cases v with
  | null => exact absurd rfl h
  | boolean b => cases b <;> decide
  | number n =>
      cases n with
      | integer n => exact head_signed_ne (ofString_toString' n) (toDigits_cons _)
      | float x => exact head_signed_ne x.ofString_render x.encode_parts_cons
  | text s =>
      rw [Value.write, ofString_writeText]
      exact fun hn => absurd (Option.some.inj hn) (by decide)
  | array items =>
      rw [Value.write, ← List.append_nil (Utf8.ofString _), ofString_writeList]
      exact fun hn => absurd (Option.some.inj hn) (by decide)
  | object members =>
      rw [Value.write, ← List.append_nil (Utf8.ofString _), ofString_writeObject]
      exact fun hn => absurd (Option.some.inj hn) (by decide)

/-- Reading a document back changes none of the names in it. -/
theorem member?_reread (v : Value) (name : String) :
    v.reread.member? name = (v.member? name).map Value.reread := by
  cases v with
  | object members =>
      rw [Value.reread, rereadMembers_eq]
      show List.lookup name _ = (List.lookup name members).map Value.reread
      induction members with
      | nil => rfl
      | cons m rest ih =>
          rw [List.map_cons, List.lookup_cons, List.lookup_cons, ih]
          cases name == m.1 <;> rfl
  | _ => rfl

/-! ### What readers yield -/

variable {ε α β δ : Type}

/-- A result in two parts is there if both parts are. -/
theorem exists_of_bind_eq_ok {x : Except ε α} {f : α → Except ε β} {b : β}
    (h : x.bind f = .ok b) : ∃ a, x = .ok a ∧ f a = .ok b := by
  cases x with
  | error e => cases h
  | ok a => exact ⟨a, rfl, h⟩

theorem exists_of_map_eq_ok {x : Except ε α} {f : α → β} {b : β} (h : x.map f = .ok b) :
    ∃ a, x = .ok a ∧ f a = b := by
  cases x with
  | error e => cases h
  | ok a => exact ⟨a, rfl, Except.ok.inj h⟩

theorem eq_ok_of_mapError {x : Except ε α} {f : ε → β} {a : α} (h : x.mapError f = .ok a) :
    x = .ok a := by
  cases x with
  | error e => cases h
  | ok b => exact congrArg _ (Except.ok.inj h)

/-- All that a reader yields has a property. -/
def Yields (read : Reader α) (P : α → Prop) : Prop :=
  ∀ ⦃s a rest⦄, read s = .ok (a, rest) → P a

/-- What whole documents are read as has every property that all has that is read. -/
theorem Yields.readDocument {read : Reader α} {P : α → Prop} (h : Yields read P)
    {payload : List UInt8} {a : α} (hread : Json.readDocument read payload = .ok a) : P a := by
  obtain ⟨⟨b, rest⟩, hb, hread⟩ := exists_of_bind_eq_ok hread
  dsimp only at hread
  split_ifs at hread
  cases hread
  exact h hb

/-- A reader of members keeps a property of drafts. -/
def Keeps (read : String → δ → Reader δ) (P : δ → Prop) : Prop :=
  ∀ ⦃name d s d' rest⦄, P d → read name d s = .ok (d', rest) → P d'

theorem yields_items {read : Reader α} {P : α → Prop} (h : Yields read P) (turns : Nat)
    (first : Bool) : Yields (items read turns first) fun as => ∀ a ∈ as, P a := by
  induction turns generalizing first with
  | zero => exact fun s a rest hs => nomatch hs
  | succ turns ih =>
      intro s as rest hs
      obtain ⟨next, -, hs⟩ := exists_of_bind_eq_ok hs
      cases next with
      | none =>
          obtain ⟨r, -, hs⟩ := exists_of_bind_eq_ok hs
          cases hs
          exact fun a ha => nomatch ha
      | some s =>
          obtain ⟨⟨a, s'⟩, ha, hs⟩ := exists_of_bind_eq_ok hs
          obtain ⟨⟨more, s''⟩, hmore, hs⟩ := exists_of_bind_eq_ok hs
          cases hs
          intro b hb
          rcases List.mem_cons.mp hb with rfl | hb
          · exact h ha
          · exact ih false hmore b hb

theorem yields_list {read : Nat → Reader α} {P : α → Prop} {levels : Nat}
    (h : ∀ inner, levels = inner + 1 → Yields (read inner) P) :
    Yields (list read levels) fun as => ∀ a ∈ as, P a := by
  intro s as rest hs
  unfold list at hs
  split at hs
  · split_ifs at hs
    · cases levels with
      | zero => cases hs
      | succ inner => exact yields_items (h inner rfl) _ _ hs
  · cases hs

theorem yields_listOf {read : Nat → Reader α} {P : α → Prop} {levels : Nat}
    (h : Yields (read levels) P) : Yields (list read (levels + 1)) fun as => ∀ a ∈ as, P a :=
  yields_list fun inner hinner => by
    obtain rfl : levels = inner := Nat.succ.inj hinner
    exact h

theorem yields_members {read : String → δ → Reader δ} {P : δ → Prop} (h : Keeps read P)
    (turns : Nat) (first : Bool) {d : δ} (hd : P d) : Yields (members read turns first d) P := by
  induction turns generalizing first d with
  | zero => exact fun s a rest hs => nomatch hs
  | succ turns ih =>
      intro s d' rest hs
      obtain ⟨⟨next, s'⟩, -, hs⟩ := exists_of_bind_eq_ok hs
      cases next with
      | none =>
          cases hs
          exact hd
      | some s =>
          obtain ⟨⟨name, s'⟩, -, hs⟩ := exists_of_bind_eq_ok hs
          obtain ⟨⟨d'', s''⟩, hread, hs⟩ := exists_of_bind_eq_ok hs
          exact ih false (h hd hread) hs

theorem gather_fst_le (ds : List UInt8) (significand : Nat)
    (h : significand ≤ 18446744073709551615) :
    (Numeral.gather significand ds).1 ≤ 18446744073709551615 := by
  induction ds generalizing significand with
  | nil => exact h
  | cons d ds ih =>
      rw [Numeral.gather]
      dsimp only
      split_ifs with hfit
      · exact ih _ hfit
      · exact h

theorem fits_of_numeral {n : Numeral} {number : Number} (h : n.value = .ok number) :
    number.Fits := by
  have hfront := gather_fst_le n.whole 0 (by norm_num)
  unfold Numeral.value at h
  dsimp only at h
  split_ifs at h with hwhole hneg
  · cases h
    obtain ⟨-, -, -, hsign⟩ := hwhole
    simp only [hneg, Bool.not_true, Bool.false_eq_true, false_or] at hsign
    rw [Number.Fits, FitsWord]
    omega
  · cases h
    rw [Number.Fits, FitsWord]
    omega
  · split at h
    · cases h
      exact Binary64.finite_of_ofDecimal? (by assumption)
    · cases h

theorem fits_of_readNumber (negative : Bool) : Yields (readNumber negative) Number.Fits := by
  intro s n rest hs
  obtain ⟨⟨numeral, s'⟩, -, hs⟩ := exists_of_bind_eq_ok hs
  obtain ⟨number, hvalue, hs⟩ := exists_of_bind_eq_ok hs
  cases hs
  exact fits_of_numeral hvalue

theorem mem_insertMember {name : String} {v : Value} {ms : List (String × Value)}
    {m : String × Value} (h : m ∈ insertMember name v ms) : m = (name, v) ∨ m ∈ ms := by
  induction ms with
  | nil => exact .inl (List.mem_singleton.mp h)
  | cons a rest ih =>
      obtain ⟨n, w⟩ := a
      rw [insertMember] at h
      split_ifs at h
      · exact List.mem_cons.mp h
      · exact (List.mem_cons.mp h).imp id fun h => List.mem_cons_of_mem _ h
      · rcases List.mem_cons.mp h with rfl | h
        · exact .inr (by simp)
        · exact (ih h).imp id fun h => List.mem_cons_of_mem _ h

theorem rising_insertMember (name : String) (v : Value) {ms : List (String × Value)}
    (h : (ms.map Prod.fst).Pairwise (· < ·)) :
    ((insertMember name v ms).map Prod.fst).Pairwise (· < ·) := by
  induction ms with
  | nil => exact List.pairwise_singleton _ _
  | cons a rest ih =>
      obtain ⟨n, w⟩ := a
      obtain ⟨hn, hrest⟩ := List.pairwise_cons.mp h
      rw [insertMember]
      split_ifs with hlt heq
      · refine List.pairwise_cons.mpr ⟨fun x hx => ?_, h⟩
        rcases List.mem_cons.mp hx with rfl | hx
        · exact hlt
        · exact String.lt_trans hlt (hn x hx)
      · rw [heq]
        exact h
      · refine List.pairwise_cons.mpr ⟨fun x hx => ?_, ih hrest⟩
        obtain ⟨m, hm, rfl⟩ := List.mem_map.mp hx
        rcases mem_insertMember hm with rfl | hm
        · show n < name
          by_contra hnot
          exact heq (String.le_antisymm (String.not_lt.mp hnot) (String.not_lt.mp hlt))
        · exact hn _ (List.mem_map_of_mem hm)

/-- **A document that is read fits**, whatever it is read from. -/
theorem yields_value (levels : Nat) : Yields (value levels) (Value.Fits levels) := by
  induction levels using Nat.strong_induction_on with
  | _ levels ih =>
    intro s v rest hs
    rw [value.eq_def] at hs
    dsimp only at hs
    split at hs
    · cases hs
    split_ifs at hs
    · obtain ⟨r, -, hs⟩ := exists_of_map_eq_ok hs
      cases hs
      exact .null _
    · obtain ⟨r, -, hs⟩ := exists_of_map_eq_ok hs
      cases hs
      exact .boolean _ _
    · obtain ⟨r, -, hs⟩ := exists_of_map_eq_ok hs
      cases hs
      exact .boolean _ _
    · obtain ⟨⟨n, r⟩, hn, hs⟩ := exists_of_map_eq_ok hs
      cases hs
      exact .number _ (fits_of_readNumber _ hn)
    · obtain ⟨⟨n, r⟩, hn, hs⟩ := exists_of_map_eq_ok hs
      cases hs
      exact .number _ (fits_of_readNumber _ hn)
    · obtain ⟨r, -, hs⟩ := exists_of_map_eq_ok hs
      cases hs
      exact .text _ _
    · cases levels with
      | zero => cases hs
      | succ inner =>
          obtain ⟨⟨items, r⟩, hitems, hs⟩ := exists_of_map_eq_ok hs
          cases hs
          exact .array (yields_items (ih inner (Nat.lt_succ_self _)) _ _ hitems)
    · cases levels with
      | zero => cases hs
      | succ inner =>
          obtain ⟨⟨ms, r⟩, hms, hs⟩ := exists_of_map_eq_ok hs
          cases hs
          have hkeeps : Keeps (readMember inner) fun ms =>
              (ms.map Prod.fst).Pairwise (· < ·) ∧ ∀ m ∈ ms, Value.Fits inner m.2 := by
            intro name acc s acc' rest hacc hread
            obtain ⟨s', -, hread⟩ := exists_of_bind_eq_ok hread
            obtain ⟨⟨v, s''⟩, hv, hread⟩ := exists_of_bind_eq_ok hread
            cases hread
            refine ⟨rising_insertMember name v hacc.1, fun m hm => ?_⟩
            rcases mem_insertMember hm with rfl | hm
            · exact ih inner (Nat.lt_succ_self _) hv
            · exact hacc.2 m hm
          obtain ⟨hrising, hfits⟩ := yields_members hkeeps _ _ (by simp) hms
          exact .object hrising hfits

/-- Only `null` is read as `null`. -/
theorem value_ne_null {levels : Nat} {s rest r : List UInt8} {b : UInt8} {v : Value}
    (hs : skipBlank s = b :: r) (hb : b ≠ byte 'n') (h : value levels s = .ok (v, rest)) :
    v ≠ .null := by
  rw [value.eq_def] at h
  dsimp only at h
  rw [hs] at h
  dsimp only at h
  rw [if_neg hb] at h
  rintro rfl
  split_ifs at h
  all_goals try cases levels
  all_goals first
    | cases h
    | obtain ⟨p, _, hp⟩ := exists_of_map_eq_ok h
      cases hp

/-- An optional document that is there fits and is not `null`. -/
theorem yields_optional_value (levels : Nat) :
    Yields (optional (value levels)) fun o => ∀ v, o = some v → v ≠ .null ∧ v.Fits levels := by
  intro s o rest h v hv
  subst hv
  unfold optional at h
  split at h
  · rename_i b r hs
    split_ifs at h with hb
    · obtain ⟨r, -, h⟩ := exists_of_map_eq_ok h
      cases h
    · obtain ⟨⟨w, r⟩, hw, h⟩ := exists_of_map_eq_ok h
      cases h
      exact ⟨value_ne_null hs hb hw, yields_value levels hw⟩
  · cases h

/-! ### What records are read as -/

namespace Record

variable {r : Record δ α} {P : δ → Prop}

theorem keeps_readMember {levels : Nat}
    (h : ∀ f ∈ r.fields, ∀ d, P d → Yields (f.read levels d) P) :
    Keeps (r.readMember levels) P := by
  intro name d s d' rest hd hread
  unfold readMember at hread
  split at hread
  · obtain ⟨s', -, hread⟩ := exists_of_bind_eq_ok hread
    obtain ⟨s'', -, hread⟩ := exists_of_bind_eq_ok hread
    cases hread
    exact hd
  · rename_i f hf
    split_ifs at hread
    obtain ⟨s', -, hread⟩ := exists_of_bind_eq_ok hread
    exact h f (List.mem_of_find?_eq_some hf) d hd hread

theorem yields_readItems {levels : Nat} {fs : List (Field δ)}
    (h : ∀ f ∈ fs, ∀ d, P d → Yields (f.read levels d) P) (first : Bool) {d : δ} (hd : P d) :
    Yields (readItems levels fs first d) P := by
  induction fs generalizing first d with
  | nil =>
      intro s d' rest hread
      cases hread
      exact hd
  | cons f fs ih =>
      intro s d' rest hread
      obtain ⟨next, -, hread⟩ := exists_of_bind_eq_ok hread
      cases next with
      | none =>
          cases hread
          exact hd
      | some s =>
          obtain ⟨⟨d'', s''⟩, hf, hread⟩ := exists_of_bind_eq_ok hread
          exact ih (fun f hf => h f (by simp [hf])) false (h f (by simp) d hd hf) hread

/-- **A record that is read** has every property that its finished drafts have, where
reading a field keeps the drafts what they are. -/
theorem yields_read {levels : Nat} {Q : α → Prop} (hblank : P r.blank)
    (hfield : ∀ inner, levels = inner + 1 → ∀ f ∈ r.fields, ∀ d, P d → Yields (f.read inner d) P)
    (hfinish : ∀ lack d a, P d → r.finish lack d = .ok a → Q a) :
    Yields (r.read levels) Q := by
  intro s a rest hs
  unfold Record.read at hs
  split at hs
  · cases hs
  split_ifs at hs
  · cases levels with
    | zero => cases hs
    | succ inner =>
        obtain ⟨⟨d, s'⟩, hd, hs⟩ := exists_of_bind_eq_ok hs
        obtain ⟨b, hb, hs⟩ := exists_of_bind_eq_ok hs
        cases hs
        have hP := yields_members (keeps_readMember (hfield inner rfl)) _ _ hblank hd
        exact hfinish _ d _ hP hb
  · cases levels with
    | zero => cases hs
    | succ inner =>
        obtain ⟨⟨d, s'⟩, hd, hs⟩ := exists_of_bind_eq_ok hs
        obtain ⟨b, hb, hs⟩ := exists_of_bind_eq_ok hs
        obtain ⟨r', -, hs⟩ := exists_of_bind_eq_ok hs
        cases hs
        exact hfinish _ d _ (yields_readItems (hfield inner rfl) _ hblank hd) hb

end Record

end IdentityStore.Json
