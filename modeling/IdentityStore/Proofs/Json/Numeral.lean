/-
Written numbers are read back.

A numeral is read in parts: the digits in front, what may follow a point, what may
follow the letter of a power.  Each part ends where its digits do, so a numeral is
read whole if what comes after it is none of the bytes that a numeral goes on with;
that is all `Ends` has to say.

Whole numbers come back as they were.  The digits of a natural begin with a zero only
if they are that zero, which is the one thing the reader refuses.
-/
import IdentityStore.Json.Reader
import IdentityStore.Json.Writer
import IdentityStore.Proofs.Text.Utf8
import Mathlib.Tactic.Positivity

namespace IdentityStore.Json

/-! ### What may follow -/

/-- Holds for what can follow a value: nothing, or a byte that no value goes on with. -/
def Ends (s : List UInt8) : Prop :=
  ∀ b ∈ s.head?, b = comma ∨ b = closeBracket ∨ b = closeBrace

@[simp] theorem ends_nil : Ends [] := by simp [Ends]

@[simp] theorem ends_comma (s : List UInt8) : Ends (comma :: s) := by simp [Ends]

@[simp] theorem ends_closeBracket (s : List UInt8) : Ends (closeBracket :: s) := by simp [Ends]

@[simp] theorem ends_closeBrace (s : List UInt8) : Ends (closeBrace :: s) := by simp [Ends]

namespace Numeral

/-! ### Digits -/

/-- Bytes in front of which a run of digits is over. -/
def Stops (s : List UInt8) : Prop := ∀ b ∈ s.head?, isDigit b = false

theorem stops_of_ends {s : List UInt8} (h : Ends s) : Stops s := by
  intro b hb
  rcases h b hb with rfl | rfl | rfl <;> rfl

/-- Characters that are all decimal digits. -/
def Digits (cs : List Char) : Prop := ∀ c ∈ cs, c.isDigit = true

theorem digits_toDigits (n : Nat) : Digits (Nat.toDigits 10 n) :=
  fun _ hc => Nat.isDigit_of_mem_toDigits (by decide) (by decide) hc

theorem digit_range {c : Char} (h : c.isDigit = true) : 48 ≤ c.toNat ∧ c.toNat ≤ 57 := by
  simp only [Char.isDigit, Bool.and_eq_true, decide_eq_true_eq, ge_iff_le,
    UInt32.le_iff_toNat_le] at h
  exact h

theorem toNat_byte {c : Char} (h : c.isDigit = true) : (byte c).toNat = c.toNat := by
  have hr := digit_range h
  rw [byte, UInt8.toNat_ofNat_of_lt' (by simp [UInt8.size]; omega)]

theorem isDigit_byte {c : Char} (h : c.isDigit = true) : isDigit (byte c) = true := by
  have hr := digit_range h
  simp [isDigit, UInt8.le_iff_toNat_le, toNat_byte h]
  omega

theorem digitValue_byte {c : Char} (h : c.isDigit = true) :
    digitValue (byte c) = c.toNat - '0'.toNat := by
  rw [digitValue, toNat_byte h]
  rfl

theorem encode_digits {cs : List Char} (h : Digits cs) : Utf8.encode cs = cs.map byte := by
  induction cs with
  | nil => rfl
  | cons c cs ih =>
      have hr := digit_range (h c (by simp))
      rw [Utf8.encode_cons, ih fun c hc => h c (by simp [hc]), Utf8.encodeChar,
        if_pos (by omega)]
      rfl

theorem digits_append {cs : List Char} (h : Digits cs) {rest : List UInt8} (hr : Stops rest) :
    digits (cs.map byte ++ rest) = (cs.map byte, rest) := by
  have hall : ∀ b ∈ cs.map byte, isDigit b = true := by
    intro b hb
    obtain ⟨c, hc, rfl⟩ := List.mem_map.mp hb
    exact isDigit_byte (h c hc)
  unfold digits
  rw [List.takeWhile_append_of_pos hall, List.dropWhile_append_of_pos hall]
  cases rest with
  | nil => simp
  | cons b rest =>
      have hb : isDigit b = false := hr b (by simp)
      simp [hb]

theorem natural_map_byte {cs : List Char} (h : Digits cs) :
    natural (cs.map byte) = Nat.ofDigitChars 10 cs 0 := by
  unfold natural
  generalize 0 = n
  induction cs generalizing n with
  | nil => rfl
  | cons c cs ih =>
      rw [List.map_cons, List.foldl_cons, ih fun c hc => h c (by simp [hc]),
        Nat.ofDigitChars_cons, digitValue_byte (h c (by simp)), Nat.mul_comm]

/-! ### Parts of a numeral -/

/-- Digits that a numeral may begin with: there are some, and no needless zero. -/
structure Whole (cs : List Char) : Prop where
  digits : Digits cs
  ne_nil : cs ≠ []
  zero : cs.head? = some '0' → cs = ['0']

theorem read_whole {whole : List Char} (h : Whole whole) (negative : Bool) {rest : List UInt8}
    (hr : Stops rest) :
    read negative (whole.map byte ++ rest) = readTail negative (whole.map byte) rest := by
  obtain ⟨hd, hne, hz⟩ := h
  cases whole with
  | nil => exact absurd rfl hne
  | cons c cs =>
      have hc : c.isDigit = true := hd c (by simp)
      by_cases hc0 : c = '0'
      · have hcs : cs = [] := by simpa [hc0] using hz
        subst hc0 hcs
        show read negative (zero :: rest) = _
        rw [read.eq_def]
        dsimp only
        rw [if_pos rfl]
        cases rest with
        | nil => rfl
        | cons d rest =>
            have hdig : isDigit d = false := hr d (by simp)
            simp only [hdig]
            rfl
      · have hne0 : byte c ≠ zero := by
          intro heq
          have := congrArg UInt8.toNat heq
          rw [toNat_byte hc] at this
          exact hc0 (Char.toNat_inj.mp this)
        rw [List.map_cons, List.cons_append, read.eq_def]
        dsimp only
        rw [if_neg hne0, if_pos (isDigit_byte hc), ← List.cons_append, ← List.map_cons,
          digits_append hd hr]

/-- The byte of a point stops the digits before it. -/
theorem stops_point (s : List UInt8) : Stops (byte '.' :: s) := by
  intro b hb
  obtain rfl : byte '.' = b := by simpa using hb
  rfl

theorem stops_power (s : List UInt8) : Stops (byte 'e' :: s) := by
  intro b hb
  obtain rfl : byte 'e' = b := by simpa using hb
  rfl

theorem readEnd_ends (negative : Bool) (whole fraction : List UInt8) {rest : List UInt8}
    (hr : Ends rest) :
    readEnd negative whole fraction rest = .ok (⟨negative, whole, fraction, none⟩, rest) := by
  cases rest with
  | nil => rfl
  | cons b rest =>
      have hb : isPowerMark b = false := by
        rcases hr b (by simp) with rfl | rfl | rfl <;> rfl
      unfold readEnd
      dsimp only
      rw [hb]
      rfl

/-- The power of ten that a sign and digits spell. -/
def powerOf (negative : Bool) (ds : List Char) : Int :=
  if negative then -(Nat.ofDigitChars 10 ds 0 : Int) else Nat.ofDigitChars 10 ds 0

theorem readPower_digits (negative : Bool) {ds : List Char} (h : Digits ds) (hne : ds ≠ [])
    {rest : List UInt8} (hr : Ends rest) :
    readPower ((if negative then minus else byte '+') :: (ds.map byte ++ rest))
      = .ok (powerOf negative ds, rest) := by
  obtain ⟨c, cs, rfl⟩ := List.exists_cons_of_ne_nil hne
  have hc : isDigit (byte c) = true := isDigit_byte (h c (by simp))
  have hsplit := digits_append h (stops_of_ends hr)
  have hnat := natural_map_byte h
  rw [List.map_cons, List.cons_append] at hsplit
  rw [List.map_cons] at hnat
  cases negative
  · rw [if_neg (by decide), readPower]
    dsimp only
    rw [if_neg (by decide), if_pos rfl]
    simp only [List.map_cons, List.cons_append, hc, if_true, hsplit, hnat, powerOf]
  · rw [if_pos rfl, readPower]
    dsimp only
    rw [if_pos rfl]
    simp only [List.map_cons, List.cons_append, hc, if_true, hsplit, hnat, powerOf]

theorem readEnd_power (negative : Bool) (whole fraction : List UInt8) (below : Bool)
    {ds : List Char} (h : Digits ds) (hne : ds ≠ []) {rest : List UInt8} (hr : Ends rest) :
    readEnd negative whole fraction
        (byte 'e' :: (if below then minus else byte '+') :: (ds.map byte ++ rest))
      = .ok (⟨negative, whole, fraction, some (powerOf below ds)⟩, rest) := by
  unfold readEnd
  dsimp only
  rw [show isPowerMark (byte 'e') = true from rfl, if_pos rfl, readPower_digits below h hne hr]
  rfl

theorem readTail_fraction (negative : Bool) (whole : List UInt8) {fraction : List Char}
    (h : Digits fraction) (hne : fraction ≠ []) {rest : List UInt8} (hr : Stops rest) :
    readTail negative whole (byte '.' :: (fraction.map byte ++ rest))
      = readEnd negative whole (fraction.map byte) rest := by
  unfold readTail
  dsimp only
  rw [if_pos rfl, digits_append h hr]
  obtain ⟨c, cs, rfl⟩ := List.exists_cons_of_ne_nil hne
  rfl

/-- Without a point the fraction is empty. -/
theorem readTail_of_head (negative : Bool) (whole : List UInt8) {rest : List UInt8}
    (h : rest.head? ≠ some (byte '.')) :
    readTail negative whole rest = readEnd negative whole [] rest := by
  cases rest with
  | nil => rfl
  | cons b rest =>
      unfold readTail
      dsimp only
      rw [if_neg (by simpa using h)]

theorem head_ne_point_of_ends {rest : List UInt8} (h : Ends rest) :
    rest.head? ≠ some (byte '.') := by
  intro hc
  rcases h _ hc with h | h | h <;> exact absurd h (by decide)

/-! ### Whole numbers -/

theorem whole_toDigits (n : Nat) : Whole (Nat.toDigits 10 n) := by
  refine ⟨digits_toDigits n, Nat.toDigits_ne_nil, ?_⟩
  induction n using Nat.strong_induction_on with
  | _ n ih =>
    rcases Nat.lt_or_ge n 10 with hlt | hge
    · rw [Nat.toDigits_of_lt_base hlt]
      intro h
      simpa using h
    · rw [Nat.toDigits_of_base_le (by decide) hge]
      intro h
      exfalso
      rw [List.head?_append_of_ne_nil _ Nat.toDigits_ne_nil] at h
      have hdiv := ih (n / 10) (by omega) h
      have hzero : n / 10 = 0 := by
        rw [← Nat.ofDigitChars_ten_toDigits (n := n / 10), hdiv]
        rfl
      omega

theorem gather_digits {cs : List Char} (h : Digits cs) {significand : Nat}
    (hfit : Nat.ofDigitChars 10 cs significand ≤ 18446744073709551615) :
    gather significand (cs.map byte) = (Nat.ofDigitChars 10 cs significand, cs.length) := by
  induction cs generalizing significand with
  | nil => rfl
  | cons c cs ih =>
      rw [Nat.ofDigitChars_cons] at hfit ⊢
      have hmono : 10 * significand + (c.toNat - '0'.toNat) ≤ 18446744073709551615 := by
        rw [Nat.ofDigitChars_eq_ofDigitChars_zero] at hfit
        refine Nat.le_trans ?_ hfit
        exact Nat.le_trans (Nat.le_mul_of_pos_left _ (by positivity)) (Nat.le_add_right _ _)
      rw [List.map_cons, gather, digitValue_byte (h c (by simp)), Nat.mul_comm significand]
      dsimp only
      rw [if_pos hmono, ih (fun c hc => h c (by simp [hc])) hfit]
      rfl

/-- The numeral of digits alone. -/
theorem read_toDigits (negative : Bool) (n : Nat) {rest : List UInt8} (hr : Ends rest) :
    read negative ((Nat.toDigits 10 n).map byte ++ rest)
      = .ok (⟨negative, (Nat.toDigits 10 n).map byte, [], none⟩, rest) := by
  rw [read_whole (whole_toDigits n) negative (stops_of_ends hr),
    readTail_of_head _ _ (head_ne_point_of_ends hr), readEnd_ends _ _ _ hr]

theorem value_toDigits (negative : Bool) (n : Nat)
    (h : if negative then 0 < n ∧ n ≤ 9223372036854775808 else n ≤ 18446744073709551615) :
    value ⟨negative, (Nat.toDigits 10 n).map byte, [], none⟩
      = .ok (.integer (if negative then -n else n)) := by
  have hfit : Nat.ofDigitChars 10 (Nat.toDigits 10 n) 0 ≤ 18446744073709551615 := by
    rw [Nat.ofDigitChars_ten_toDigits]
    cases negative
    · exact h
    · exact Nat.le_trans h.2 (by decide)
  unfold value
  rw [gather_digits (digits_toDigits n) hfit, Nat.ofDigitChars_ten_toDigits]
  dsimp only
  rw [if_pos]
  cases negative
  · simp
  · simpa using h

end Numeral

/-! ### Whole numbers in documents -/

/-- Holds for the whole numbers that fit 64 bits, with or without a sign. -/
def FitsWord (n : Int) : Prop := -9223372036854775808 ≤ n ∧ n ≤ 18446744073709551615

/-- The bytes of a whole number: perhaps a minus, and the digits of its size. -/
theorem ofString_toString (n : Int) :
    Utf8.ofString (toString n)
      = (if n < 0 then [minus] else []) ++ (Nat.toDigits 10 n.natAbs).map byte := by
  rw [Int.toString_eq_repr, Int.repr_eq_if, Utf8.ofString]
  split_ifs with h1 h2 h3
  · omega
  · rw [Nat.toList_repr, Numeral.encode_digits (Numeral.digits_toDigits _),
      show n.toNat = n.natAbs by omega]
    rfl
  · rw [String.toList_append, Nat.toList_repr, Utf8.encode_append,
      Numeral.encode_digits (Numeral.digits_toDigits _), show (-n).toNat = n.natAbs by omega]
    rfl
  · omega

/-- **A written whole number is read back**, behind its sign. -/
theorem readNumber_toDigits {n : Int} (h : FitsWord n) {rest : List UInt8} (hr : Ends rest) :
    readNumber (decide (n < 0)) ((Nat.toDigits 10 n.natAbs).map byte ++ rest)
      = .ok (.integer n, rest) := by
  obtain ⟨hlo, hhi⟩ := h
  unfold readNumber
  rw [Numeral.read_toDigits _ _ hr]
  simp only [bind, Except.bind]
  rw [Numeral.value_toDigits]
  · by_cases hn : n < 0
    · simp only [hn, decide_true, if_true]
      rw [show -(n.natAbs : Int) = n by omega]
      rfl
    · simp only [hn, decide_false]
      rw [if_neg (by decide), show (n.natAbs : Int) = n by omega]
      rfl
  · by_cases hn : n < 0
    · simp only [hn, decide_true, if_true]
      omega
    · simp only [hn, decide_false]
      rw [if_neg (by decide)]
      omega

end IdentityStore.Json
