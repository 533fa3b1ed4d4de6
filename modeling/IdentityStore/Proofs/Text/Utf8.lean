/-
Text and its bytes are the same thing in two forms.

Two facts are needed.  Writing a text and reading the bytes gives the text back, so
that what the library writes itself it can read.  And bytes that are read as a text
are the bytes of that text, so that a payload which is kept as text is kept as it
came: a record read from the text again is the record that was read from the
payload.

Both go character by character.  A character has one to four bytes, and for each
width one lemma reads the bytes that writing makes and another writes the code point
that reading finds; the bounds on the second byte are what keeps the code point in
range there.
-/
import IdentityStore.Text.Utf8
import Mathlib.Tactic.SplitIfs
import Mathlib.Data.Nat.Notation

namespace IdentityStore.Utf8

/-! ### What was written is read back -/

/-- A character's code point is no surrogate and not beyond the last one. -/
theorem toNat_range (c : Char) : c.toNat < 0xD800 ∨ 0xDFFF < c.toNat ∧ c.toNat < 0x110000 := by
  have h := c.valid
  simp only [UInt32.isValidChar, Nat.isValidChar] at h
  exact h

theorem toNat_continuation (n : Nat) : (continuation n).toNat = 0x80 + n % 64 := by
  unfold continuation
  rw [UInt8.toNat_ofNat_of_lt' (by simp [UInt8.size]; omega)]

theorem isContinuation_continuation (n : Nat) : isContinuation (continuation n) = true := by
  simp only [isContinuation, Bool.and_eq_true, decide_eq_true_eq, UInt8.le_iff_toNat_le,
    toNat_continuation]
  simp
  omega

theorem payload_continuation (n : Nat) : payload (continuation n) = n % 64 := by
  rw [payload, toNat_continuation]
  omega

private theorem decodeFrom_one {n : Nat} (h : n < 0x80) (index : Nat) (rest : List UInt8) :
    decodeFrom index (UInt8.ofNat n :: rest)
      = (decodeFrom (index + 1) rest).map (Char.ofNat n :: ·) := by
  have ha : (UInt8.ofNat n).toNat = n := UInt8.toNat_ofNat_of_lt' (by simp [UInt8.size]; omega)
  rw [decodeFrom.eq_def]
  dsimp only
  rw [if_pos (by rw [UInt8.lt_iff_toNat_lt, ha]; simpa using h), ha]
  rfl

private theorem decodeFrom_two {n : Nat} (h : 0x80 ≤ n) (h' : n < 0x800) (index : Nat)
    (rest : List UInt8) :
    decodeFrom index (UInt8.ofNat (0xC0 + n / 64) :: continuation n :: rest)
      = (decodeFrom (index + 2) rest).map (Char.ofNat n :: ·) := by
  have ha : (UInt8.ofNat (0xC0 + n / 64)).toNat = 0xC0 + n / 64 :=
    UInt8.toNat_ofNat_of_lt' (by simp [UInt8.size]; omega)
  rw [decodeFrom.eq_def]
  dsimp only
  rw [if_neg (by rw [UInt8.lt_iff_toNat_lt, ha]; simp; omega),
    if_pos (by simp [UInt8.le_iff_toNat_le]; omega),
    if_pos (isContinuation_continuation n), ha, payload_continuation,
    show (0xC0 + n / 64) % 32 * 64 + n % 64 = n by omega]
  rfl

private theorem decodeFrom_three {n : Nat} (h : 0x800 ≤ n) (h' : n < 0x10000)
    (hn : n < 0xD800 ∨ 0xDFFF < n) (index : Nat) (rest : List UInt8) :
    decodeFrom index
        (UInt8.ofNat (0xE0 + n / 4096) :: continuation (n / 64) :: continuation n :: rest)
      = (decodeFrom (index + 3) rest).map (Char.ofNat n :: ·) := by
  have ha : (UInt8.ofNat (0xE0 + n / 4096)).toNat = 0xE0 + n / 4096 :=
    UInt8.toNat_ofNat_of_lt' (by simp [UInt8.size]; omega)
  have hsecond : isSecondOfThree (UInt8.ofNat (0xE0 + n / 4096)) (continuation (n / 64))
      = true := by
    unfold isSecondOfThree
    split_ifs with h1 h2
    · rw [← UInt8.toNat_inj, ha] at h1
      simp [UInt8.le_iff_toNat_le, toNat_continuation] at h1 ⊢
      omega
    · rw [← UInt8.toNat_inj, ha] at h2
      simp [UInt8.le_iff_toNat_le, toNat_continuation] at h2 ⊢
      omega
    · exact isContinuation_continuation _
  rw [decodeFrom.eq_def]
  dsimp only
  rw [if_neg (by rw [UInt8.lt_iff_toNat_lt, ha]; simp; omega),
    if_neg (by simp [UInt8.le_iff_toNat_le]; omega),
    if_pos (by simp [UInt8.le_iff_toNat_le]; omega), if_pos hsecond,
    if_pos (isContinuation_continuation n), ha, payload_continuation, payload_continuation,
    show (0xE0 + n / 4096) % 16 * 4096 + n / 64 % 64 * 64 + n % 64 = n by omega]
  rfl

private theorem decodeFrom_four {n : Nat} (h : 0x10000 ≤ n) (h' : n < 0x110000) (index : Nat)
    (rest : List UInt8) :
    decodeFrom index
        (UInt8.ofNat (0xF0 + n / 262144) :: continuation (n / 4096) :: continuation (n / 64) ::
          continuation n :: rest)
      = (decodeFrom (index + 4) rest).map (Char.ofNat n :: ·) := by
  have ha : (UInt8.ofNat (0xF0 + n / 262144)).toNat = 0xF0 + n / 262144 :=
    UInt8.toNat_ofNat_of_lt' (by simp [UInt8.size]; omega)
  have hsecond : isSecondOfFour (UInt8.ofNat (0xF0 + n / 262144)) (continuation (n / 4096))
      = true := by
    unfold isSecondOfFour
    split_ifs with h1 h2
    · rw [← UInt8.toNat_inj, ha] at h1
      simp [UInt8.le_iff_toNat_le, toNat_continuation] at h1 ⊢
      omega
    · rw [← UInt8.toNat_inj, ha] at h2
      simp [UInt8.le_iff_toNat_le, toNat_continuation] at h2 ⊢
      omega
    · exact isContinuation_continuation _
  rw [decodeFrom.eq_def]
  dsimp only
  rw [if_neg (by rw [UInt8.lt_iff_toNat_lt, ha]; simp; omega),
    if_neg (by simp [UInt8.le_iff_toNat_le]; omega),
    if_neg (by simp [UInt8.le_iff_toNat_le]; omega),
    if_pos (by simp [UInt8.le_iff_toNat_le]; omega), if_pos hsecond,
    if_pos (isContinuation_continuation _), if_pos (isContinuation_continuation n), ha,
    payload_continuation, payload_continuation, payload_continuation,
    show (0xF0 + n / 262144) % 8 * 262144 + n / 4096 % 64 * 4096 + n / 64 % 64 * 64 + n % 64 = n
      by omega]
  rfl

/-- One character is read back, wherever it stands. -/
theorem decodeFrom_encodeChar (c : Char) (index : Nat) (rest : List UInt8) :
    decodeFrom index (encodeChar c ++ rest)
      = (decodeFrom (index + (encodeChar c).length) rest).map (c :: ·) := by
  have hrange := toNat_range c
  have hc : Char.ofNat c.toNat = c := Char.ofNat_toNat c
  unfold encodeChar
  dsimp only
  split_ifs with h1 h2 h3
  · simpa [hc] using decodeFrom_one h1 index rest
  · simpa [hc] using decodeFrom_two (Nat.le_of_not_lt h1) h2 index rest
  · simpa [hc] using decodeFrom_three (Nat.le_of_not_lt h2) h3 (by omega) index rest
  · simpa [hc] using decodeFrom_four (Nat.le_of_not_lt h3) (by omega) index rest

theorem decodeFrom_encode (cs : List Char) (index : Nat) :
    decodeFrom index (encode cs) = .ok cs := by
  induction cs generalizing index with
  | nil => rfl
  | cons c cs ih =>
      rw [encode_cons, decodeFrom_encodeChar, ih]
      rfl

/-- **What was written is read back.** -/
theorem decode_encode (cs : List Char) : decode (encode cs) = .ok (String.ofList cs) := by
  rw [decode, decodeFrom_encode]
  rfl

theorem decode_ofString (s : String) : decode (ofString s) = .ok s := by
  rw [ofString, decode_encode, String.ofList_toList]

/-! ### What was read is what would be written -/

theorem toNat_ofNat_of_valid {n : Nat} (h : n < 0xD800 ∨ 0xDFFF < n ∧ n < 0x110000) :
    (Char.ofNat n).toNat = n := by
  have hv : n.isValidChar := h
  rw [Char.ofNat, dif_pos hv]
  rfl

private theorem encodeChar_of_one {a : UInt8} (ha : a.toNat < 0x80) :
    encodeChar (Char.ofNat a.toNat) = [a] := by
  unfold encodeChar
  rw [toNat_ofNat_of_valid (by omega)]
  dsimp only
  rw [if_pos ha, UInt8.ofNat_toNat]

private theorem continuation_payload {b : UInt8} (h : isContinuation b = true) (k : Nat) :
    continuation (k * 64 + payload b) = b := by
  simp [isContinuation, UInt8.le_iff_toNat_le] at h
  rw [← UInt8.toNat_inj, toNat_continuation, payload]
  omega

private theorem encodeChar_of_two {a b : UInt8} (ha : 0xC2 ≤ a.toNat) (ha' : a.toNat ≤ 0xDF)
    (hb : isContinuation b = true) :
    encodeChar (Char.ofNat (a.toNat % 32 * 64 + payload b)) = [a, b] := by
  have hp : payload b < 64 := Nat.mod_lt _ (by decide)
  unfold encodeChar
  rw [toNat_ofNat_of_valid (by omega)]
  dsimp only
  rw [if_neg (by omega), if_pos (by omega), continuation_payload hb,
    show 0xC0 + (a.toNat % 32 * 64 + payload b) / 64 = a.toNat by omega, UInt8.ofNat_toNat]

/-- The second byte of three is a continuation and keeps the code point in range. -/
private theorem second_of_three {a b : UInt8} (h : isSecondOfThree a b = true) :
    isContinuation b = true ∧ (a.toNat = 0xE0 → 0x20 ≤ payload b) ∧
      (a.toNat = 0xED → payload b < 0x20) := by
  unfold isSecondOfThree at h
  split_ifs at h with h1 h2
  · rw [← UInt8.toNat_inj] at h1
    simp [isContinuation, payload, UInt8.le_iff_toNat_le] at h h1 ⊢
    omega
  · rw [← UInt8.toNat_inj] at h2
    simp [isContinuation, payload, UInt8.le_iff_toNat_le] at h h2 ⊢
    omega
  · rw [← UInt8.toNat_inj] at h1 h2
    simp at h1 h2
    exact ⟨h, fun hc => absurd hc h1, fun hc => absurd hc h2⟩

private theorem encodeChar_of_three {a b c : UInt8} (ha : 0xE0 ≤ a.toNat)
    (ha' : a.toNat ≤ 0xEF) (hb : isSecondOfThree a b = true) (hc : isContinuation c = true) :
    encodeChar (Char.ofNat (a.toNat % 16 * 4096 + payload b * 64 + payload c)) = [a, b, c] := by
  obtain ⟨hcont, hlow, hsur⟩ := second_of_three hb
  have hp : payload b < 64 := Nat.mod_lt _ (by decide)
  have hq : payload c < 64 := Nat.mod_lt _ (by decide)
  unfold encodeChar
  rw [toNat_ofNat_of_valid (by omega)]
  dsimp only
  rw [if_neg (by omega), if_neg (by omega), if_pos (by omega),
    show (a.toNat % 16 * 4096 + payload b * 64 + payload c) / 64
      = a.toNat % 16 * 64 + payload b by omega,
    continuation_payload hcont,
    show a.toNat % 16 * 4096 + payload b * 64 + payload c
      = (a.toNat % 16 * 64 + payload b) * 64 + payload c by omega,
    continuation_payload hc,
    show 0xE0 + ((a.toNat % 16 * 64 + payload b) * 64 + payload c) / 4096 = a.toNat by omega,
    UInt8.ofNat_toNat]

/-- The second byte of four is a continuation and keeps the code point in range. -/
private theorem second_of_four {a b : UInt8} (h : isSecondOfFour a b = true) :
    isContinuation b = true ∧ (a.toNat = 0xF0 → 0x10 ≤ payload b) ∧
      (a.toNat = 0xF4 → payload b < 0x10) := by
  unfold isSecondOfFour at h
  split_ifs at h with h1 h2
  · rw [← UInt8.toNat_inj] at h1
    simp [isContinuation, payload, UInt8.le_iff_toNat_le] at h h1 ⊢
    omega
  · rw [← UInt8.toNat_inj] at h2
    simp [isContinuation, payload, UInt8.le_iff_toNat_le] at h h2 ⊢
    omega
  · rw [← UInt8.toNat_inj] at h1 h2
    simp at h1 h2
    exact ⟨h, fun hc => absurd hc h1, fun hc => absurd hc h2⟩

private theorem encodeChar_of_four {a b c d : UInt8} (ha : 0xF0 ≤ a.toNat)
    (ha' : a.toNat ≤ 0xF4) (hb : isSecondOfFour a b = true) (hc : isContinuation c = true)
    (hd : isContinuation d = true) :
    encodeChar
        (Char.ofNat (a.toNat % 8 * 262144 + payload b * 4096 + payload c * 64 + payload d))
      = [a, b, c, d] := by
  obtain ⟨hcont, hlow, hhigh⟩ := second_of_four hb
  have hp : payload b < 64 := Nat.mod_lt _ (by decide)
  have hq : payload c < 64 := Nat.mod_lt _ (by decide)
  have hr : payload d < 64 := Nat.mod_lt _ (by decide)
  unfold encodeChar
  rw [toNat_ofNat_of_valid (by omega)]
  dsimp only
  rw [if_neg (by omega), if_neg (by omega), if_neg (by omega),
    show (a.toNat % 8 * 262144 + payload b * 4096 + payload c * 64 + payload d) / 4096
      = a.toNat % 8 * 64 + payload b by omega,
    continuation_payload hcont,
    show (a.toNat % 8 * 262144 + payload b * 4096 + payload c * 64 + payload d) / 64
      = (a.toNat % 8 * 64 + payload b) * 64 + payload c by omega,
    continuation_payload hc,
    show a.toNat % 8 * 262144 + payload b * 4096 + payload c * 64 + payload d
      = ((a.toNat % 8 * 64 + payload b) * 64 + payload c) * 64 + payload d by omega,
    continuation_payload hd,
    show 0xF0 + (((a.toNat % 8 * 64 + payload b) * 64 + payload c) * 64 + payload d) / 262144
      = a.toNat by omega,
    UInt8.ofNat_toNat]

private theorem map_cons_eq_ok {n : Nat} {r : Except Flaw (List Char)} {cs : List Char}
    (h : r.map (Char.ofNat n :: ·) = .ok cs) : ∃ ds, r = .ok ds ∧ cs = Char.ofNat n :: ds := by
  cases r with
  | error e => cases h
  | ok ds =>
      cases h
      exact ⟨ds, rfl, rfl⟩

theorem encode_of_decodeFrom {index : Nat} {bytes : List UInt8} {cs : List Char}
    (h : decodeFrom index bytes = .ok cs) : encode cs = bytes := by
  fun_induction decodeFrom index bytes generalizing cs with
  | case1 index =>
      cases h
      rfl
  | case2 index a r ha ih =>
      obtain ⟨ds, hds, rfl⟩ := map_cons_eq_ok h
      rw [encode_cons, encodeChar_of_one (by simpa [UInt8.lt_iff_toNat_lt] using ha), ih hds]
      rfl
  | case4 index a _ ha b r hb ih =>
      obtain ⟨ds, hds, rfl⟩ := map_cons_eq_ok h
      simp [UInt8.le_iff_toNat_le] at ha
      rw [encode_cons, encodeChar_of_two ha.1 ha.2 hb, ih hds]
      rfl
  | case8 index a _ _ ha b hb c r hc ih =>
      obtain ⟨ds, hds, rfl⟩ := map_cons_eq_ok h
      simp [UInt8.le_iff_toNat_le] at ha
      rw [encode_cons, encodeChar_of_three ha.1 ha.2 hb hc, ih hds]
      rfl
  | case14 index a _ _ _ ha b hb c hc d r hd ih =>
      obtain ⟨ds, hds, rfl⟩ := map_cons_eq_ok h
      simp [UInt8.le_iff_toNat_le] at ha
      rw [encode_cons, encodeChar_of_four ha.1 ha.2 hb hc hd, ih hds]
      rfl
  | _ => cases h

/-- **Bytes that spell a text are the bytes of that text.** -/
theorem ofString_of_decode {bytes : List UInt8} {s : String} (h : decode bytes = .ok s) :
    ofString s = bytes := by
  unfold decode at h
  cases hd : decodeFrom 0 bytes with
  | error e =>
      rw [hd] at h
      cases h
  | ok cs =>
      rw [hd] at h
      cases h
      rw [ofString, String.toList_ofList, encode_of_decodeFrom hd]

end IdentityStore.Utf8
