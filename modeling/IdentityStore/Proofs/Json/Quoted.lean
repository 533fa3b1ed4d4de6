/-
Written text is read back.

Every character is written either as itself or behind a backslash, and the reader
has one step for each of the two forms; the text follows by induction on its
characters.  A character that is written as itself has no byte that means anything
to the reader, because only ASCII characters do and those have one byte.
-/
import IdentityStore.Json.Quoted
import IdentityStore.Proofs.Text.Utf8
import Mathlib.Data.Char

namespace IdentityStore.Json

/-! ### One step of the reader -/

theorem contents_quotationMark (rest : List UInt8) :
    contents (quotationMark :: rest) = .ok ([], rest) := by
  rw [contents.eq_def]
  rfl

/-- A byte that stands for itself. -/
theorem contents_plain {b : UInt8} (hq : b ≠ quotationMark) (hb : b ≠ backslash)
    (hc : ¬ b < 0x20) (rest : List UInt8) :
    contents (b :: rest) = (contents rest).map fun r => (b :: r.1, r.2) := by
  rw [contents.eq_def]
  dsimp only
  rw [if_neg hq, if_neg hb, if_neg hc]
  rfl

theorem contents_plain_append (bytes rest : List UInt8)
    (h : ∀ b ∈ bytes, b ≠ quotationMark ∧ b ≠ backslash ∧ ¬ b < 0x20) :
    contents (bytes ++ rest) = (contents rest).map fun r => (bytes ++ r.1, r.2) := by
  induction bytes with
  | nil =>
      show contents rest = _
      cases contents rest <;> rfl
  | cons b bytes ih =>
      obtain ⟨hq, hb, hc⟩ := h b (by simp)
      rw [List.cons_append, contents_plain hq hb hc, ih fun b hb => h b (by simp [hb])]
      cases contents rest <;> rfl

/-- A letter behind a backslash. -/
theorem contents_escape {e c : UInt8} (he : e ≠ byte 'u') (h : escaped? e = some c)
    (rest : List UInt8) :
    contents (backslash :: e :: rest) = (contents rest).map fun r => (c :: r.1, r.2) := by
  rw [contents.eq_def]
  dsimp only
  rw [if_neg (by decide), if_pos rfl, if_neg he, h]
  rfl

/-- Four hexadecimal digits that are no surrogate. -/
theorem contents_point {a b c d : UInt8} {n : Nat} (h : hexValue4? a b c d = some n)
    (hlow : n < 0xD800) (rest : List UInt8) :
    contents (backslash :: byte 'u' :: a :: b :: c :: d :: rest)
      = (contents rest).map fun r => (pointBytes n ++ r.1, r.2) := by
  have ht : isTrailing n = false := by simp [isTrailing]; omega
  have hl : isLeading n = false := by simp [isLeading]; omega
  rw [contents.eq_def]
  dsimp only
  rw [if_neg (by decide), if_pos rfl, if_pos rfl, h]
  dsimp only
  rw [ht, hl]
  rfl

/-! ### Escapes are read back -/

theorem byte_hexDigit (n : Nat) : hexValue? (byte (hexDigit n)) = some (n % 16) := by
  have h : n % 16 < 16 := Nat.mod_lt _ (by decide)
  unfold hexDigit
  generalize n % 16 = m at h
  revert m
  decide

/-- A byte of a longer sequence stands for itself. -/
private theorem plain_of_le {b : UInt8} (h : 0x80 ≤ b.toNat) :
    b ≠ quotationMark ∧ b ≠ backslash ∧ ¬ b < 0x20 := by
  refine ⟨?_, ?_, ?_⟩
  · rintro rfl
    simp [quotationMark] at h
  · rintro rfl
    simp [backslash] at h
  · rw [UInt8.lt_iff_toNat_lt]
    simp
    omega

theorem encodeChar_plain {c : Char} (hq : c ≠ '"') (hb : c ≠ '\\') (hc : 0x20 ≤ c.toNat) :
    ∀ b ∈ Utf8.encodeChar c, b ≠ quotationMark ∧ b ≠ backslash ∧ ¬ b < 0x20 := by
  intro b hmem
  have hrange := Utf8.toNat_range c
  have hcont : ∀ n, 0x80 ≤ (Utf8.continuation n).toNat := fun n => by
    rw [Utf8.toNat_continuation]
    omega
  have hlead : ∀ n, 0x80 ≤ n → n < 256 → 0x80 ≤ (UInt8.ofNat n).toNat := fun n hn hn' => by
    rw [UInt8.toNat_ofNat_of_lt' (by simpa [UInt8.size] using hn')]
    exact hn
  unfold Utf8.encodeChar at hmem
  dsimp only at hmem
  split_ifs at hmem with h1 h2 h3
  · rw [List.mem_singleton] at hmem
    have hn : b.toNat = c.toNat := by
      rw [hmem, UInt8.toNat_ofNat_of_lt' (by simp [UInt8.size]; omega)]
    refine ⟨?_, ?_, ?_⟩
    · rintro rfl
      exact hq (Char.toNat_inj.mp hn.symm)
    · rintro rfl
      exact hb (Char.toNat_inj.mp hn.symm)
    · rw [UInt8.lt_iff_toNat_lt, hn]
      simpa using hc
  · simp only [List.mem_cons, List.not_mem_nil, or_false] at hmem
    rcases hmem with rfl | rfl
    · exact plain_of_le (hlead _ (by omega) (by omega))
    · exact plain_of_le (hcont _)
  · simp only [List.mem_cons, List.not_mem_nil, or_false] at hmem
    rcases hmem with rfl | rfl | rfl
    · exact plain_of_le (hlead _ (by omega) (by omega))
    · exact plain_of_le (hcont _)
    · exact plain_of_le (hcont _)
  · simp only [List.mem_cons, List.not_mem_nil, or_false] at hmem
    rcases hmem with rfl | rfl | rfl | rfl
    · exact plain_of_le (hlead _ (by omega) (by omega))
    · exact plain_of_le (hcont _)
    · exact plain_of_le (hcont _)
    · exact plain_of_le (hcont _)

theorem encodeChar_hexDigit (n : Nat) : Utf8.encodeChar (hexDigit n) = [byte (hexDigit n)] := by
  have h : n % 16 < 16 := Nat.mod_lt _ (by decide)
  unfold hexDigit
  generalize n % 16 = m at h
  revert m
  decide

theorem contents_escapeChar (c : Char) (rest : List UInt8) :
    contents (Utf8.encode (escapeChar c) ++ rest)
      = (contents rest).map fun r => (Utf8.encodeChar c ++ r.1, r.2) := by
  unfold escapeChar
  split_ifs with h1 h2 h3 h4 h5 h6 h7 h8
  · subst h1; exact contents_escape (by decide) (by decide) rest
  · subst h2; exact contents_escape (by decide) (by decide) rest
  · subst h3; exact contents_escape (by decide) (by decide) rest
  · subst h4; exact contents_escape (by decide) (by decide) rest
  · subst h5; exact contents_escape (by decide) (by decide) rest
  · subst h6; exact contents_escape (by decide) (by decide) rest
  · subst h7; exact contents_escape (by decide) (by decide) rest
  · have hpoint : hexValue4? (byte '0') (byte '0') (byte (hexDigit (c.toNat / 16)))
        (byte (hexDigit c.toNat)) = some c.toNat := by
      simp only [hexValue4?, byte_hexDigit, show hexValue? (byte '0') = some 0 by decide]
      simp
      omega
    rw [show Utf8.encodeChar c = pointBytes c.toNat by rw [pointBytes, Char.ofNat_toNat],
      ← contents_point hpoint (by omega)]
    simp only [Utf8.encode_cons, Utf8.encode_nil, encodeChar_hexDigit]
    rfl
  · rw [Utf8.encode_cons, Utf8.encode_nil, List.append_nil]
    exact contents_plain_append _ _ (encodeChar_plain h1 h2 (by omega))

/-! ### Texts -/

theorem contents_escapes (cs : List Char) (rest : List UInt8) :
    contents (Utf8.encode (cs.flatMap escapeChar) ++ quotationMark :: rest)
      = .ok (Utf8.encode cs, rest) := by
  induction cs with
  | nil => exact contents_quotationMark rest
  | cons c cs ih =>
      rw [List.flatMap_cons, Utf8.encode_append, List.append_assoc, contents_escapeChar, ih]
      rfl

/-- The bytes of a written text: a quotation mark, the escaped characters and another
quotation mark. -/
theorem ofString_writeText (s : String) :
    Utf8.ofString (writeText s)
      = quotationMark :: (Utf8.encode (s.toList.flatMap escapeChar) ++ [quotationMark]) := by
  rw [writeText, Utf8.ofString, String.toList_ofList, List.cons_append, Utf8.encode_cons,
    Utf8.encode_append]
  rfl

/-- **A written text is read back**, behind its opening quotation mark. -/
theorem readText_escapes (s : String) (rest : List UInt8) :
    readText (Utf8.encode (s.toList.flatMap escapeChar) ++ quotationMark :: rest)
      = .ok (s, rest) := by
  unfold readText
  rw [contents_escapes]
  simp only [bind, Except.bind]
  rw [show Utf8.encode s.toList = Utf8.ofString s from rfl, Utf8.decode_ofString]
  rfl

end IdentityStore.Json
