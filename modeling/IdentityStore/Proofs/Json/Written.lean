/-
What writers write, readers read back.

`Reads read w a` says that the text `w` is a value whole in itself, which `read` takes
for `a` no matter what comes after it.  The parts of a document keep this shape, so a
written whole is read back because its parts are: items make a list, members make an
object, and the members of a record make the record.

Between items and members a written document has one byte, and none of it is blank.
That, and the first byte of every value, is all that has to be known to follow the
reader from one part to the next.
-/
import IdentityStore.Json.Record
import IdentityStore.Proofs.Json.Floating
import IdentityStore.Proofs.Json.Quoted

namespace IdentityStore.Json

variable {α δ : Type}

/-! ### Written values -/

/-- Holds for the bytes that a written value may begin with. -/
def Begins (b : UInt8) : Prop := isBlank b = false ∧ b ≠ closeBracket

/-- The text `w` begins as a value does. -/
def Starts (w : String) : Prop := ∃ b bs, Utf8.ofString w = b :: bs ∧ Begins b

/-- The reader takes the text for the value, whatever comes after it. -/
structure Reads (read : Reader α) (w : String) (a : α) : Prop where
  starts : Starts w
  reads : ∀ {rest}, Ends rest → read (Utf8.ofString w ++ rest) = .ok (a, rest)

theorem skipBlank_cons {b : UInt8} (h : isBlank b = false) (s : List UInt8) :
    skipBlank (b :: s) = b :: s := by
  unfold skipBlank
  rw [List.dropWhile_cons_of_neg (by rw [h]; decide)]

theorem Starts.skipBlank {w : String} (h : Starts w) (rest : List UInt8) :
    skipBlank (Utf8.ofString w ++ rest) = Utf8.ofString w ++ rest := by
  obtain ⟨b, bs, hw, hb, -⟩ := h
  rw [hw, List.cons_append, skipBlank_cons hb]

theorem ofString_append (v w : String) :
    Utf8.ofString (v ++ w) = Utf8.ofString v ++ Utf8.ofString w := by
  rw [Utf8.ofString, String.toList_append, Utf8.encode_append]
  rfl

/-- A whole document is read back. -/
theorem Reads.readDocument {read : Reader α} {w : String} {a : α} (h : Reads read w a) :
    readDocument read (Utf8.ofString w) = .ok a := by
  have hread := h.reads ends_nil
  rw [List.append_nil] at hread
  rw [Json.readDocument, hread]
  rfl

/-- A reader that does more with what another one reads. -/
theorem Reads.map {β : Type} {read : Reader α} {w : String} {a : α} (h : Reads read w a)
    (f : α → β) : Reads (fun s => (read s).map fun p => (f p.1, p.2)) w (f a) := by
  refine ⟨h.starts, fun hr => ?_⟩
  rw [h.reads hr]
  rfl

/-! ### Texts and numbers -/

theorem starts_writeText (s : String) : Starts (writeText s) :=
  ⟨quotationMark, _, ofString_writeText s, by decide, by decide⟩

/-- The bytes of a written text in front of others. -/
theorem ofString_writeText_append (s : String) (rest : List UInt8) :
    Utf8.ofString (writeText s) ++ rest
      = quotationMark :: (Utf8.encode (s.toList.flatMap escapeChar) ++ quotationMark :: rest) := by
  rw [ofString_writeText, List.cons_append, List.append_assoc]
  rfl

theorem reads_text (expected s : String) : Reads (text expected) (writeText s) s := by
  refine ⟨starts_writeText s, fun {rest} _ => ?_⟩
  unfold text
  rw [(starts_writeText s).skipBlank, ofString_writeText_append]
  dsimp only
  rw [if_pos rfl, readText_escapes]

theorem ne_of_isDigit {b c : UInt8} (h : isDigit b = true) (hc : isDigit c = false) : b ≠ c := by
  rintro rfl
  rw [h] at hc
  cases hc

theorem begins_of_isDigit {b : UInt8} (h : isDigit b = true) : Begins b := by
  refine ⟨?_, ne_of_isDigit h rfl⟩
  simp only [isBlank, Bool.or_eq_false_iff, decide_eq_false_iff_not]
  exact ⟨⟨⟨ne_of_isDigit h rfl, ne_of_isDigit h rfl⟩, ne_of_isDigit h rfl⟩, ne_of_isDigit h rfl⟩

/-- The digits of a natural begin with a digit. -/
theorem toDigits_cons (n : Nat) :
    ∃ b bs, (Nat.toDigits 10 n).map byte = b :: bs ∧ isDigit b = true := by
  obtain ⟨hd, hne, -⟩ := Numeral.whole_toDigits n
  obtain ⟨c, cs, h⟩ := List.exists_cons_of_ne_nil hne
  rw [h]
  exact ⟨byte c, cs.map byte, rfl, Numeral.isDigit_byte (hd c (by simp [h]))⟩

/-- What begins with a digit, perhaps behind a minus, begins as a value does. -/
theorem starts_signed {w : String} {negative : Bool} {bytes : List UInt8}
    (h : Utf8.ofString w = (if negative then [minus] else []) ++ bytes)
    (hd : ∃ b bs, bytes = b :: bs ∧ isDigit b = true) : Starts w := by
  obtain ⟨b, bs, rfl, hb⟩ := hd
  cases negative
  · exact ⟨b, bs, h, begins_of_isDigit hb⟩
  · exact ⟨minus, b :: bs, h, by decide, by decide⟩

theorem ofString_toString' (n : Int) :
    Utf8.ofString (toString n)
      = (if decide (n < 0) then [minus] else []) ++ (Nat.toDigits 10 n.natAbs).map byte := by
  rw [ofString_toString]
  simp only [decide_eq_true_eq]

theorem starts_toString (n : Int) : Starts (toString n) :=
  starts_signed (ofString_toString' n) (toDigits_cons _)

/-- A whole number of a kind is read back. -/
theorem reads_integer {w : Width} {n : Int} (hw : w.least ≤ n ∧ n ≤ w.most) (hn : FitsWord n) :
    Reads (integer w) (toString n) n := by
  refine ⟨starts_toString n, fun {rest} hr => ?_⟩
  have hfit : w.fit n = .ok n := by rw [Width.fit, if_pos hw]
  have hread := readNumber_toDigits hn hr
  obtain ⟨b, bs, hdigits, hb⟩ := toDigits_cons n.natAbs
  unfold integer
  rw [(starts_toString n).skipBlank, ofString_toString', hdigits]
  rw [hdigits] at hread
  by_cases hneg : n < 0
  · rw [decide_eq_true hneg] at hread ⊢
    rw [if_pos rfl, List.singleton_append, List.cons_append]
    dsimp only
    rw [if_pos rfl, hread]
    simp only [bind, Except.bind, hfit]
    rfl
  · rw [decide_eq_false hneg] at hread ⊢
    rw [if_neg (by decide), List.nil_append, List.cons_append]
    dsimp only
    rw [if_neg (ne_of_isDigit hb rfl), if_pos hb, ← List.cons_append, hread]
    simp only [bind, Except.bind, hfit]
    rfl

/-- A whole number of a kind without negative ones is read back. -/
theorem reads_natural {w : Width} {n : Nat} (hw : w.least ≤ n ∧ (n : Int) ≤ w.most)
    (hn : FitsWord n) : Reads (natural w) (toString n) n :=
  (reads_integer hw hn).map Int.toNat

/-! ### Words -/

/-- The rest of a word is found where it was written. -/
theorem readWord_map_byte (cs : List Char) (rest : List UInt8) :
    readWord cs (cs.map byte ++ rest) = .ok rest := by
  induction cs with
  | nil => rfl
  | cons c cs ih =>
      rw [List.map_cons, List.cons_append, readWord, if_pos rfl, ih]

/-- A value that may be missing is read back when it is there, if it does not begin as
`null` does. -/
theorem reads_optional {read : Reader α} {w : String} {a : α} (h : Reads read w a)
    (hn : (Utf8.ofString w).head? ≠ some (byte 'n')) : Reads (optional read) w (some a) := by
  refine ⟨h.starts, fun {rest} hr => ?_⟩
  have hread := h.reads hr
  unfold optional
  rw [h.starts.skipBlank]
  obtain ⟨b, bs, hw, -⟩ := h.starts
  rw [hw] at hn hread ⊢
  rw [List.cons_append] at hread ⊢
  dsimp only
  rw [if_neg (by simpa using hn), hread]
  rfl

/-- No text begins as `null` does. -/
theorem head_writeText_ne (s : String) :
    (Utf8.ofString (writeText s)).head? ≠ some (byte 'n') := by
  rw [ofString_writeText]
  exact fun hn => absurd (Option.some.inj hn) (by decide)

/-- A value that may be missing is read back, there or not. -/
theorem reads_writeOption {read : Reader α} {write : α → String} {o : Option α}
    (h : ∀ a, o = some a →
      Reads read (write a) a ∧ (Utf8.ofString (write a)).head? ≠ some (byte 'n')) :
    Reads (optional read) (writeOption write o) o := by
  cases o with
  | some a => exact reads_optional (h a rfl).1 (h a rfl).2
  | none =>
    have hnull : Utf8.ofString "null" = byte 'n' :: "ull".toList.map byte := rfl
    refine ⟨⟨_, _, hnull, by decide, by decide⟩, fun {rest} _ => ?_⟩
    unfold optional
    rw [writeOption, hnull, List.cons_append, skipBlank_cons (by decide)]
    dsimp only
    rw [if_pos rfl, readWord_map_byte]
    rfl

/-- A truth value is read back. -/
theorem reads_boolean (b : Bool) : Reads boolean (writeBoolean b) b := by
  cases b with
  | true =>
    have hword : Utf8.ofString "true" = byte 't' :: "rue".toList.map byte := rfl
    refine ⟨⟨_, _, hword, by decide, by decide⟩, fun {rest} _ => ?_⟩
    unfold boolean
    rw [writeBoolean, if_pos rfl, hword, List.cons_append, skipBlank_cons (by decide)]
    dsimp only
    rw [if_pos rfl, readWord_map_byte]
    rfl
  | false =>
    have hword : Utf8.ofString "false" = byte 'f' :: "alse".toList.map byte := rfl
    refine ⟨⟨_, _, hword, by decide, by decide⟩, fun {rest} _ => ?_⟩
    unfold boolean
    rw [writeBoolean, if_neg (by decide), hword, List.cons_append, skipBlank_cons (by decide)]
    dsimp only
    rw [if_neg (by decide), if_pos rfl, readWord_map_byte]
    rfl

/-- A known word is read back. -/
theorem reads_choice {known : List (String × α)} {a : α} (levels : Nat) (word : String)
    (h : known.lookup word = some a) : Reads (choice known levels) (writeText word) a := by
  refine ⟨starts_writeText word, fun {rest} _ => ?_⟩
  unfold choice
  dsimp only
  rw [(starts_writeText word).skipBlank, ofString_writeText_append]
  dsimp only
  rw [if_pos rfl, readText_escapes]
  simp only [bind, Except.bind, h]
  rfl

/-! ### Lists -/

/-- The bytes of written values behind a first one. -/
def following (ws : List String) : List UInt8 := ws.flatMap fun w => comma :: Utf8.ofString w

@[simp] theorem following_nil : following [] = [] := rfl

@[simp] theorem following_cons (w : String) (ws : List String) :
    following (w :: ws) = comma :: (Utf8.ofString w ++ following ws) := by
  rw [following, List.flatMap_cons, List.cons_append]
  rfl

theorem ofString_intercalate (w : String) (ws : List String) :
    Utf8.ofString (String.intercalate "," (w :: ws)) = Utf8.ofString w ++ following ws := by
  induction ws generalizing w with
  | nil => rw [String.intercalate_singleton, following_nil, List.append_nil]
  | cons v ws ih =>
      rw [String.intercalate_cons_cons, ofString_append, ofString_append, ih, following_cons,
        List.append_assoc]
      rfl

theorem ends_following (ws : List String) (rest : List UInt8) (hr : Ends rest) :
    Ends (following ws ++ rest) := by
  cases ws with
  | nil => exact hr
  | cons w ws =>
      rw [following_cons, List.cons_append]
      exact ends_comma _

theorem length_le_following (ws : List String) : ws.length ≤ (following ws).length := by
  induction ws with
  | nil => exact Nat.zero_le _
  | cons w ws ih =>
      rw [following_cons, List.length_cons, List.length_cons, List.length_append]
      omega

theorem nextItem?_first {w : String} (h : Starts w) (rest : List UInt8) :
    nextItem? true (Utf8.ofString w ++ rest) = .ok (some (Utf8.ofString w ++ rest)) := by
  unfold nextItem?
  rw [h.skipBlank]
  obtain ⟨b, bs, hw, -, hb⟩ := h
  rw [hw, List.cons_append]
  dsimp only
  rw [if_neg hb, if_pos rfl]

theorem nextItem?_comma {w : String} (h : Starts w) (rest : List UInt8) :
    nextItem? false (comma :: (Utf8.ofString w ++ rest))
      = .ok (some (Utf8.ofString w ++ rest)) := by
  unfold nextItem?
  rw [skipBlank_cons (by decide)]
  dsimp only
  rw [if_neg (by decide), if_neg (by decide), if_pos rfl, h.skipBlank]
  obtain ⟨b, bs, hw, -, hb⟩ := h
  rw [hw, List.cons_append]
  dsimp only
  rw [if_neg hb]

theorem items_close {read : Reader α} {turns : Nat} {first : Bool} (ht : 0 < turns)
    (rest : List UInt8) : items read turns first (closeBracket :: rest) = .ok ([], rest) := by
  obtain ⟨turns, rfl⟩ := Nat.exists_eq_add_of_lt ht
  rw [Nat.zero_add, items, nextItem?, endList, skipBlank_cons (by decide)]
  rfl

theorem items_following {read : Reader α} {ws : List String} {as : List α}
    (h : List.Forall₂ (Reads read) ws as) {turns : Nat} (ht : ws.length < turns)
    (rest : List UInt8) :
    items read turns false (following ws ++ closeBracket :: rest) = .ok (as, rest) := by
  induction h generalizing turns with
  | nil => exact items_close ht rest
  | @cons w a ws as hw _ ih =>
      rw [List.length_cons] at ht
      obtain ⟨turns, rfl⟩ : ∃ t, turns = t + 1 := ⟨turns - 1, by omega⟩
      have hread := hw.reads (ends_following ws (closeBracket :: rest) (ends_closeBracket rest))
      rw [following_cons, List.cons_append, List.append_assoc, items, nextItem?_comma hw.starts]
      simp only [bind, Except.bind, hread, ih (show ws.length < turns by omega)]
      rfl

/-- A written list is read back behind its opening bracket. -/
theorem itemsOf_written {read : Reader α} {ws : List String} {as : List α}
    (h : List.Forall₂ (Reads read) ws as) (rest : List UInt8) :
    itemsOf read (Utf8.ofString (String.intercalate "," ws) ++ closeBracket :: rest)
      = .ok (as, rest) := by
  unfold itemsOf
  cases h with
  | nil =>
      exact items_close (by omega) rest
  | @cons w a ws as hw hws =>
      have hread := hw.reads (ends_following ws (closeBracket :: rest) (ends_closeBracket rest))
      have hlen := length_le_following ws
      rw [ofString_intercalate, List.append_assoc, items, nextItem?_first hw.starts]
      simp only [bind, Except.bind, hread]
      rw [items_following hws]
      · rfl
      · obtain ⟨b, bs, hb, -⟩ := hw.starts
        rw [hb]
        simp only [List.length_append, List.length_cons]
        omega

theorem ofString_writeList (ws : List String) (rest : List UInt8) :
    Utf8.ofString (writeList ws) ++ rest
      = openBracket :: (Utf8.ofString (String.intercalate "," ws) ++ closeBracket :: rest) := by
  rw [writeList, ofString_append, ofString_append, List.append_assoc, List.append_assoc]
  rfl

theorem starts_writeList (ws : List String) : Starts (writeList ws) := by
  have h := ofString_writeList ws []
  rw [List.append_nil] at h
  exact ⟨openBracket, _, h, by decide, by decide⟩

/-- **A written list is read back** if its items are. -/
theorem reads_list {read : Nat → Reader α} {levels : Nat} {ws : List String} {as : List α}
    (h : List.Forall₂ (Reads (read levels)) ws as) :
    Reads (list read (levels + 1)) (writeList ws) as := by
  refine ⟨starts_writeList ws, fun {rest} _ => ?_⟩
  unfold list
  rw [(starts_writeList ws).skipBlank, ofString_writeList]
  dsimp only
  rw [if_pos rfl, itemsOf_written h]

/-- A list of what is written one by one. -/
theorem reads_listOf {β : Type} {read : Nat → Reader β} {levels : Nat} {as : List α}
    {write : α → String} {reread : α → β}
    (h : ∀ a ∈ as, Reads (read levels) (write a) (reread a)) :
    Reads (list read (levels + 1)) (writeList (as.map write)) (as.map reread) := by
  refine reads_list ?_
  rw [List.forall₂_map_left_iff, List.forall₂_map_right_iff, List.forall₂_same]
  exact h

/-! ### Objects -/

/-- The members of a written object take a draft to another one, member by member. -/
inductive Steps (read : String → δ → Reader δ) : δ → List (String × String) → δ → Prop
  | nil (d : δ) : Steps read d [] d
  | cons {d d' d'' : δ} {name w : String} {ms : List (String × String)}
      (starts : Starts w)
      (reads : ∀ {rest}, Ends rest →
        read name d (colon :: (Utf8.ofString w ++ rest)) = .ok (d', rest))
      (more : Steps read d' ms d'') : Steps read d ((name, w) :: ms) d''

/-- What is written for a member. -/
def memberText (m : String × String) : String := writeText m.1 ++ ":" ++ m.2

theorem ofString_memberText (m : String × String) (rest : List UInt8) :
    Utf8.ofString (memberText m) ++ rest
      = quotationMark :: (Utf8.encode (m.1.toList.flatMap escapeChar)
          ++ quotationMark :: colon :: (Utf8.ofString m.2 ++ rest)) := by
  rw [memberText, ofString_append, ofString_append, List.append_assoc, List.append_assoc,
    ofString_writeText_append]
  rfl

theorem members_close {read : String → δ → Reader δ} {turns : Nat} (ht : 0 < turns)
    (first : Bool) (d : δ) (rest : List UInt8) :
    members read turns first d (closeBrace :: rest) = .ok (d, rest) := by
  obtain ⟨turns, rfl⟩ := Nat.exists_eq_add_of_lt ht
  rw [Nat.zero_add, members, nextMember?, skipBlank_cons (by decide)]
  rfl

/-- One member behind its quotation mark, and the members after it. -/
theorem members_step {read : String → δ → Reader δ} {turns : Nat} {first : Bool} {d d' : δ}
    {name w : String} {s rest : List UInt8}
    (hnext : nextMember? first s = .ok (some (Utf8.encode (name.toList.flatMap escapeChar)
      ++ quotationMark :: colon :: (Utf8.ofString w ++ rest)),
      Utf8.encode (name.toList.flatMap escapeChar)
        ++ quotationMark :: colon :: (Utf8.ofString w ++ rest)))
    (hread : read name d (colon :: (Utf8.ofString w ++ rest)) = .ok (d', rest)) :
    members read (turns + 1) first d s = members read turns false d' rest := by
  rw [members, hnext]
  simp only [bind, Except.bind, readText_escapes, hread]

theorem members_following {read : String → δ → Reader δ} {ms : List (String × String)}
    {d d' : δ} (h : Steps read d ms d') {turns : Nat} (ht : ms.length < turns)
    (rest : List UInt8) :
    members read turns false d (following (ms.map memberText) ++ closeBrace :: rest)
      = .ok (d', rest) := by
  induction h generalizing turns with
  | nil d => exact members_close ht false d rest
  | @cons d d' d'' name w ms _ hread _ ih =>
      rw [List.length_cons] at ht
      obtain ⟨turns, rfl⟩ : ∃ t, turns = t + 1 := ⟨turns - 1, by omega⟩
      have hends := ends_following (ms.map memberText) (closeBrace :: rest) (ends_closeBrace rest)
      rw [List.map_cons, following_cons, List.cons_append, List.append_assoc,
        ofString_memberText, members_step _ (hread hends)]
      · exact ih (by omega)
      · unfold nextMember?
        rw [skipBlank_cons (by decide)]
        dsimp only
        rw [if_neg (by decide), if_neg (by decide), if_pos rfl, skipBlank_cons (by decide)]
        dsimp only
        rw [if_pos rfl]

/-- A written object is read back behind its opening brace. -/
theorem membersOf_written {read : String → δ → Reader δ} {ms : List (String × String)}
    {d d' : δ} (h : Steps read d ms d') (rest : List UInt8) :
    membersOf read d (Utf8.ofString (String.intercalate "," (ms.map memberText))
      ++ closeBrace :: rest) = .ok (d', rest) := by
  unfold membersOf
  cases h with
  | nil => exact members_close (by omega) true d rest
  | @cons d d' d'' name w ms _ hread hmore =>
      have hends := ends_following (ms.map memberText) (closeBrace :: rest) (ends_closeBrace rest)
      have hlen := length_le_following (ms.map memberText)
      rw [List.map_cons, ofString_intercalate, List.append_assoc]
      rw [ofString_memberText, members_step _ (hread hends)]
      · refine members_following hmore ?_ rest
        rw [List.length_map] at hlen
        simp only [List.length_append, List.length_cons]
        omega
      · unfold nextMember?
        rw [skipBlank_cons (by decide)]
        dsimp only
        rw [if_neg (by decide), if_pos rfl, if_pos rfl]

theorem ofString_writeObject (ms : List (String × String)) (rest : List UInt8) :
    Utf8.ofString (writeObject ms) ++ rest
      = openBrace :: (Utf8.ofString (String.intercalate "," (ms.map memberText))
          ++ closeBrace :: rest) := by
  rw [writeObject, ofString_append, ofString_append, List.append_assoc, List.append_assoc]
  rfl

theorem starts_writeObject (ms : List (String × String)) : Starts (writeObject ms) := by
  have h := ofString_writeObject ms []
  rw [List.append_nil] at h
  exact ⟨openBrace, _, h, by decide, by decide⟩

theorem readColon_colon (s : List UInt8) : readColon (colon :: s) = .ok s := by
  rw [readColon, skipBlank_cons (by decide)]
  rfl

/-! ### Records -/

namespace Record

variable (r : Record δ α)

/-- One step of the members of a record: the field of the name is read into the draft. -/
theorem readMember_field {levels : Nat} {name w : String} {d d' : δ} {f : Field δ}
    (hfind : r.fields.find? (·.answersTo name) = some f) (hgiven : f.given d = false)
    (hread : Reads (f.read levels d) w d') {rest : List UInt8} (hr : Ends rest) :
    r.readMember levels name d (colon :: (Utf8.ofString w ++ rest)) = .ok (d', rest) := by
  unfold readMember
  rw [hfind]
  dsimp only
  rw [hgiven, if_neg (by decide), readColon_colon]
  exact hread.reads hr

/-- **A written record is read back** if its members lead to a draft that it comes of. -/
theorem reads_writeObject {levels : Nat} {ms : List (String × String)} {d : δ} {a : α}
    (h : Steps (r.readMember levels) r.blank ms d) (hfinish : r.finish lackOfMember d = .ok a) :
    Reads (r.read (levels + 1)) (writeObject ms) a := by
  refine ⟨starts_writeObject ms, fun {rest} _ => ?_⟩
  unfold Record.read
  rw [(starts_writeObject ms).skipBlank, ofString_writeObject]
  dsimp only
  rw [if_pos rfl, membersOf_written h]
  simp only [bind, Except.bind, hfinish]
  rfl

end Record

end IdentityStore.Json
