/-
Written floating numbers are read back as floating numbers.

A document spells a number by its shortest decimal, with the point in place or with a
power of ten.  Either way the text has three parts, and `read_text` says that the
reader finds the same parts in it, whatever comes after.  The parts have a point or a
power, so their value is a floating number: `readNumber_parts`.

It need not be the same number, since the reader rounds more than once.  All that is
known of it is that there is one.  The parts spell at most one last place more than
the number, which leaves room for the roundings of the reader below the largest
number; only for the three numbers just below that are the texts read one by one.
-/
import IdentityStore.Proofs.Json.Numeral
import IdentityStore.Proofs.Decimal.Shortest
import Mathlib.Data.List.TakeWhile
import Mathlib.Tactic.Linarith

namespace IdentityStore.Json

open Numeral (Digits Whole Stops)

/-! ### Parts of a floating number -/

/-- The digits before the point, those behind it, and the power of ten. -/
structure Parts where
  whole : List Char
  fraction : List Char
  power : Option Int

namespace Parts

/-- The letter, the sign and the digits of the power of ten. -/
def powerText : Option Int → List Char
  | none => []
  | some p => 'e' :: (if p < 0 then '-' else '+') :: Nat.toDigits 10 p.natAbs

/-- What the parts are written as. -/
def text (p : Parts) : List Char :=
  p.whole ++ (if p.fraction = [] then [] else '.' :: p.fraction) ++ powerText p.power

/-- The numeral that is read from the parts. -/
def numeral (p : Parts) (negative : Bool) : Numeral :=
  ⟨negative, p.whole.map byte, p.fraction.map byte, p.power⟩

/-- Holds for parts that are a number, and not a whole one. -/
structure Floating (p : Parts) : Prop where
  whole : Whole p.whole
  /-- All digits before the point fit the significand. -/
  short : p.whole.length ≤ 19
  fraction : Digits p.fraction
  floating : p.fraction ≠ [] ∨ p.power ≠ none

/-! ### Reading the parts -/

theorem powerOf_natAbs (p : Int) :
    Numeral.powerOf (decide (p < 0)) (Nat.toDigits 10 p.natAbs) = p := by
  unfold Numeral.powerOf
  rw [Nat.ofDigitChars_ten_toDigits]
  by_cases h : p < 0
  · rw [decide_eq_true h, if_pos rfl]
    omega
  · rw [decide_eq_false h, if_neg (by decide)]
    omega

theorem encode_powerText (p : Int) :
    Utf8.encode (powerText (some p))
      = byte 'e' :: (if decide (p < 0) then minus else byte '+')
          :: (Nat.toDigits 10 p.natAbs).map byte := by
  rw [powerText, Utf8.encode_cons, Utf8.encode_cons,
    Numeral.encode_digits (Numeral.digits_toDigits _)]
  by_cases h : p < 0
  · rw [if_pos h, if_pos (decide_eq_true h)]
    rfl
  · rw [if_neg h, if_neg (by simpa using h)]
    rfl

theorem readEnd_powerText (negative : Bool) (whole fraction : List UInt8) (power : Option Int)
    {rest : List UInt8} (hr : Ends rest) :
    Numeral.readEnd negative whole fraction (Utf8.encode (powerText power) ++ rest)
      = .ok (⟨negative, whole, fraction, power⟩, rest) := by
  cases power with
  | none => exact Numeral.readEnd_ends _ _ _ hr
  | some p =>
      rw [encode_powerText, List.cons_append, List.cons_append,
        Numeral.readEnd_power _ _ _ _ (Numeral.digits_toDigits _) Nat.toDigits_ne_nil hr,
        powerOf_natAbs]

theorem stops_powerText (power : Option Int) {rest : List UInt8} (hr : Ends rest) :
    Stops (Utf8.encode (powerText power) ++ rest) := by
  cases power with
  | none => exact Numeral.stops_of_ends hr
  | some p =>
      rw [encode_powerText, List.cons_append]
      exact Numeral.stops_power _

theorem head_powerText_ne_point (power : Option Int) {rest : List UInt8} (hr : Ends rest) :
    (Utf8.encode (powerText power) ++ rest).head? ≠ some (byte '.') := by
  cases power with
  | none => exact Numeral.head_ne_point_of_ends hr
  | some p =>
      rw [encode_powerText, List.cons_append, List.head?_cons]
      decide

/-- **The written parts are read back.** -/
theorem read_text {p : Parts} (hp : p.Floating) (negative : Bool) {rest : List UInt8}
    (hr : Ends rest) :
    Numeral.read negative (Utf8.encode p.text ++ rest) = .ok (p.numeral negative, rest) := by
  rw [text, Utf8.encode_append, Utf8.encode_append, List.append_assoc, List.append_assoc,
    Numeral.encode_digits hp.whole.digits]
  by_cases hf : p.fraction = []
  · rw [if_pos hf, Utf8.encode_nil, List.nil_append,
      Numeral.read_whole hp.whole _ (stops_powerText _ hr),
      Numeral.readTail_of_head _ _ (head_powerText_ne_point _ hr), readEnd_powerText _ _ _ _ hr,
      numeral, hf]
    rfl
  · have hpoint : Utf8.encode ('.' :: p.fraction) = byte '.' :: p.fraction.map byte := by
      rw [Utf8.encode_cons, Numeral.encode_digits hp.fraction]
      rfl
    rw [if_neg hf, hpoint, List.cons_append, Numeral.read_whole hp.whole _ (Numeral.stops_point _),
      Numeral.readTail_fraction _ _ hp.fraction hf (stops_powerText _ hr),
      readEnd_powerText _ _ _ _ hr, numeral]

/-! ### The value of the parts -/

/-- Digits that are left out count as zeros. -/
theorem gather_le {cs : List Char} (h : Digits cs) (significand : Nat) :
    ∃ n count, Numeral.gather significand (cs.map byte) = (n, count) ∧
      count ≤ cs.length ∧ significand ≤ n ∧
      (significand ≤ 18446744073709551615 → n ≤ 18446744073709551615) ∧
      n * 10 ^ (cs.length - count) ≤ Nat.ofDigitChars 10 cs significand := by
  induction cs generalizing significand with
  | nil => exact ⟨significand, 0, rfl, le_rfl, le_rfl, id, by simp⟩
  | cons c cs ih =>
      rw [List.map_cons, Numeral.gather, Numeral.digitValue_byte (h c (by simp)),
        Nat.mul_comm significand]
      dsimp only
      split_ifs with hfit
      · obtain ⟨n, count, heq, hcount, hle, hword, hsize⟩ :=
          ih (fun c hc => h c (by simp [hc])) (10 * significand + (c.toNat - '0'.toNat))
        rw [heq]
        refine ⟨n, count + 1, rfl, by simpa using hcount, by omega, fun _ => hword hfit, ?_⟩
        rw [Nat.ofDigitChars_cons, List.length_cons, Nat.add_sub_add_right]
        exact hsize
      · refine ⟨significand, 0, rfl, Nat.zero_le _, le_rfl, id, ?_⟩
        rw [Nat.ofDigitChars_eq_ofDigitChars_zero, Nat.mul_comm]
        exact Nat.le_add_right _ _

/-- The size that the parts spell. -/
def size (p : Parts) : ℚ :=
  Nat.ofDigitChars 10 (p.whole ++ p.fraction) 0 * 10 ^ (p.power.getD 0 - p.fraction.length)

theorem ofDigitChars_short {cs : List Char} (h : Digits cs) (hlen : cs.length ≤ 19) :
    Nat.ofDigitChars 10 cs 0 ≤ 18446744073709551615 := by
  have hlt : ∀ cs : List Char, Digits cs → Nat.ofDigitChars 10 cs 0 < 10 ^ cs.length := by
    intro cs
    induction cs with
    | nil => exact fun _ => by simp
    | cons c cs ih =>
        intro h
        have hc := Numeral.digit_range (h c (by simp))
        have hcs := ih fun c hc => h c (by simp [hc])
        rw [Nat.ofDigitChars_cons, Nat.ofDigitChars_eq_ofDigitChars_zero, List.length_cons,
          pow_succ]
        have hzero : '0'.toNat = 48 := rfl
        nlinarith [Nat.mul_le_mul_left (10 ^ cs.length) (show c.toNat - '0'.toNat ≤ 9 by omega)]
  have h19 : 10 ^ cs.length ≤ 10 ^ 19 := Nat.pow_le_pow_right (by norm_num) hlen
  have hword : 10 ^ 19 ≤ 18446744073709551615 := by norm_num
  have := hlt cs h
  omega

/-- A power of ten that a positive natural below the largest number is multiplied with
is itself in reach. -/
theorem le_mostTen {n : Nat} (hn : 0 < n) {k : Int}
    (h : (n : ℚ) * 10 ^ k ≤ (2 ^ 53 - 3) * 2 ^ Binary64.mostExponent) :
    k ≤ Binary64.mostTen := by
  obtain ⟨e, he, hlarge⟩ : ∃ e : Nat, Binary64.mostExponent = e ∧
      2 ^ 53 * 2 ^ e < 10 ^ (Binary64.mostTen + 1) := ⟨971, rfl, by decide +kernel⟩
  by_contra hk
  have hpow : (10 : ℚ) ^ (Binary64.mostTen + 1) ≤ 10 ^ k := by
    rw [← zpow_natCast]
    exact zpow_le_zpow_right₀ (by norm_num) (by push_cast; omega)
  have hone : (1 : ℚ) ≤ n := by exact_mod_cast hn
  have hlarge' : (2 ^ 53 * 2 ^ e : ℚ) < 10 ^ (Binary64.mostTen + 1) := by exact_mod_cast hlarge
  have htwo : (0 : ℚ) < 2 ^ e := by positivity
  have hten : (0 : ℚ) < 10 ^ k := zpow_pos (by norm_num) _
  rw [he, zpow_natCast] at h
  nlinarith

/-- **Written parts that are not too large have a value**, and it is a floating
number. -/
theorem value_numeral {p : Parts} (hp : p.Floating) (negative : Bool)
    (h : p.power.getD 0 ≤ 0 ∨ 0 < Nat.ofDigitChars 10 p.whole 0 ∧
      p.size ≤ (2 ^ 53 - 3) * 2 ^ Binary64.mostExponent) :
    ∃ y, (p.numeral negative).value = .ok (.float y) := by
  have hfront := ofDigitChars_short hp.whole.digits hp.short
  obtain ⟨n, count, hgather, hcount, hle, hword, hsize⟩ :=
    gather_le hp.fraction (Nat.ofDigitChars 10 p.whole 0)
  have hsome : (Binary64.ofDecimal? negative n
      ((p.whole.length - p.whole.length : Nat) - count + p.power.getD 0)).isSome = true := by
    refine Binary64.isSome_ofDecimal? (by have := hword hfront; omega) ?_
    rw [Nat.sub_self, Nat.cast_zero, zero_sub]
    rcases h with h | ⟨hpos, hbound⟩
    · left
      omega
    · right
      have hle' : (n : ℚ) * 10 ^ (-(count : Int) + p.power.getD 0) ≤ p.size := by
        have hcast : (n : ℚ) * 10 ^ (p.fraction.length - count)
            ≤ Nat.ofDigitChars 10 (p.whole ++ p.fraction) 0 := by
          rw [Nat.ofDigitChars_append]
          exact_mod_cast hsize
        rw [size, show -(count : Int) + p.power.getD 0
            = (p.fraction.length - count : Nat) + (p.power.getD 0 - p.fraction.length) by omega,
          zpow_add₀ (by norm_num), zpow_natCast, ← mul_assoc]
        exact mul_le_mul_of_nonneg_right hcast (zpow_nonneg (by norm_num) _)
      have hbound' := hle'.trans hbound
      exact ⟨le_mostTen (by omega) hbound', hbound'⟩
  obtain ⟨y, hy⟩ := Option.isSome_iff_exists.mp hsome
  refine ⟨y, ?_⟩
  have hnot : ¬((p.numeral negative).fraction = [] ∧ (p.numeral negative).power = none ∧
      p.whole.length = (p.numeral negative).whole.length ∧
      (!(p.numeral negative).negative ∨ (0 < Nat.ofDigitChars 10 p.whole 0 ∧
        Nat.ofDigitChars 10 p.whole 0 ≤ 9223372036854775808))) := by
    rintro ⟨hf, hpow, -, -⟩
    rcases hp.floating with h | h
    · exact h (List.map_eq_nil_iff.mp hf)
    · exact h hpow
  rw [Numeral.value.eq_def]
  rw [show (p.numeral negative).whole = p.whole.map byte from rfl,
    Numeral.gather_digits hp.whole.digits hfront]
  dsimp only
  rw [if_neg (by simpa [numeral] using hnot)]
  rw [show (p.numeral negative).fraction = p.fraction.map byte from rfl, hgather,
    List.length_map, show (p.numeral negative).negative = negative from rfl,
    show (p.numeral negative).power = p.power from rfl]
  dsimp only
  rw [hy]

end Parts

end IdentityStore.Json

namespace IdentityStore.Binary64

open Json (Parts byte minus Ends Number)
open Json.Numeral (Digits Whole)

/-! ### The digits of a number -/

/-- The digits without the zeros at the end, and those zeros. -/
theorem toDigits_significant (n : Nat) :
    ∃ k, Nat.toDigits 10 n = significant n ++ List.replicate k '0' := by
  have hsplit := List.takeWhile_append_dropWhile (p := (· = '0')) (l := (Nat.toDigits 10 n).reverse)
  have hzeros : (Nat.toDigits 10 n).reverse.takeWhile (· = '0')
      = List.replicate ((Nat.toDigits 10 n).reverse.takeWhile (· = '0')).length '0' := by
    rw [List.eq_replicate_iff]
    exact ⟨rfl, fun c hc => by simpa using List.mem_takeWhile_imp hc⟩
  refine ⟨((Nat.toDigits 10 n).reverse.takeWhile (· = '0')).length, ?_⟩
  rw [significant, ← List.reverse_replicate, ← hzeros, ← List.reverse_append, hsplit,
    List.reverse_reverse]

/-- What is known of the digits of a positive natural without the zeros at the end. -/
structure Significant (n : Nat) (ds : List Char) : Prop where
  whole : Whole ds
  head : ds.head? ≠ some '0'
  length : ds.length ≤ width n
  value : Nat.ofDigitChars 10 ds 0 * 10 ^ (width n - ds.length) = n

theorem significant_spec {n : Nat} (hn : 0 < n) : Significant n (significant n) := by
  obtain ⟨k, hk⟩ := toDigits_significant n
  have hwhole := Json.Numeral.whole_toDigits n
  have hne : significant n ≠ [] := by
    intro hnil
    have hzero := Nat.ofDigitChars_ten_toDigits (n := n)
    rw [hk, hnil, List.nil_append, Nat.ofDigitChars_replicate_zero, Nat.mul_zero] at hzero
    omega
  have hhead : (significant n).head? ≠ some '0' := by
    intro h0
    have h0' : (Nat.toDigits 10 n).head? = some '0' := by
      rw [hk, List.head?_append_of_ne_nil _ hne, h0]
    have hzero := Nat.ofDigitChars_ten_toDigits (n := n)
    rw [hwhole.zero h0'] at hzero
    exact hn.ne hzero
  have hlen : width n = (significant n).length + k := by
    rw [width, hk, List.length_append, List.length_replicate]
  refine ⟨⟨?_, hne, fun h0 => absurd h0 hhead⟩, hhead, by omega, ?_⟩
  · intro c hc
    exact hwhole.digits c (by rw [hk]; exact List.mem_append_left _ hc)
  · have hvalue := Nat.ofDigitChars_ten_toDigits (n := n)
    rw [hk, Nat.ofDigitChars_append, Nat.ofDigitChars_replicate_zero] at hvalue
    rw [show width n - (significant n).length = k by omega, Nat.mul_comm]
    exact hvalue

/-! ### The parts of a number -/

/-- How many digits stand before the point. -/
def pointOf (x : Binary64) : Int := width x.shortest.digits + x.shortest.exponent

/-- The parts that a document writes of a number. -/
def parts (x : Binary64) : Parts :=
  let ds := significant x.shortest.digits
  let point := x.pointOf
  if x.mantissa = 0 then ⟨['0'], ['0'], none⟩
  else if Layout.document.inPlace (point - 1) then
    if point ≤ 0 then ⟨['0'], List.replicate (-point).toNat '0' ++ ds, none⟩
    else if ds.length ≤ point.toNat then
      ⟨ds ++ List.replicate (point.toNat - ds.length) '0', ['0'], none⟩
    else ⟨ds.take point.toNat, ds.drop point.toNat, none⟩
  else ⟨ds.take 1, ds.drop 1, some (point - 1)⟩

theorem toList_render (x : Binary64) :
    (x.render .document).toList = (if x.negative then ['-'] else []) ++ x.parts.text := by
  unfold render parts
  by_cases hzero : x.mantissa = 0
  · rw [if_pos hzero, if_pos hzero, String.toList_ofList]
    rfl
  rw [if_neg hzero, if_neg hzero, String.toList_ofList]
  congr 1
  have hds := significant_spec (digits_shortest_pos (Nat.pos_of_ne_zero hzero))
  rw [show (width x.shortest.digits : Int) + x.shortest.exponent = x.pointOf from rfl]
  split_ifs with hplace hpoint hlen
  · rw [renderPlain, if_pos hpoint, Parts.text, if_neg (by simp [hds.whole.ne_nil])]
    simp [Parts.powerText]
  · rw [renderPlain, if_neg hpoint, if_pos hlen, Parts.text, if_neg (by simp)]
    simp [Parts.powerText]
  · rw [renderPlain, if_neg hpoint, if_neg hlen, Parts.text,
      if_neg (by simp; omega)]
    simp [Parts.powerText]
  · rw [renderPower, Parts.text]
    rcases hdrop : (significant x.shortest.digits).drop 1 with _ | ⟨c, cs⟩
    · simp [Parts.powerText]
    · simp [Parts.powerText]

theorem digits_replicate (k : Nat) : Digits (List.replicate k '0') := by
  intro c hc
  rw [(List.mem_replicate.mp hc).2]
  rfl

theorem digits_of_append {as bs : List Char} (ha : Digits as) (hb : Digits bs) :
    Digits (as ++ bs) := by
  intro c hc
  exact (List.mem_append.mp hc).elim (ha c) (hb c)

/-- A first digit that is not zero is never a needless one. -/
theorem whole_of_head {cs : List Char} (h : Digits cs) (hne : cs ≠ [])
    (hhead : cs.head? ≠ some '0') : Whole cs :=
  ⟨h, hne, fun h0 => absurd h0 hhead⟩

/-- The parts of a number that is not zero, as its digits have it. -/
theorem parts_cases (x : Binary64) (hm : x.mantissa ≠ 0) :
    (∃ k, x.parts = ⟨['0'], List.replicate k '0' ++ significant x.shortest.digits, none⟩) ∨
    (∃ k, (significant x.shortest.digits).length + k ≤ 16 ∧
      x.parts = ⟨significant x.shortest.digits ++ List.replicate k '0', ['0'], none⟩) ∨
    (∃ k, 0 < k ∧ k ≤ 16 ∧ k < (significant x.shortest.digits).length ∧
      x.parts = ⟨(significant x.shortest.digits).take k, (significant x.shortest.digits).drop k,
        none⟩) ∨
    x.parts = ⟨(significant x.shortest.digits).take 1, (significant x.shortest.digits).drop 1,
      some (x.pointOf - 1)⟩ := by
  unfold parts
  rw [if_neg hm]
  split_ifs with hplace hpoint hlen
  · exact .inl ⟨_, rfl⟩
  · have hmost : x.pointOf - 1 ≤ 15 := by
      simp only [Layout.inPlace, Layout.document, Option.all_some, Bool.and_eq_true,
        decide_eq_true_eq] at hplace
      exact hplace.2
    exact .inr (.inl ⟨_, by omega, rfl⟩)
  · have hmost : x.pointOf - 1 ≤ 15 := by
      simp only [Layout.inPlace, Layout.document, Option.all_some, Bool.and_eq_true,
        decide_eq_true_eq] at hplace
      exact hplace.2
    exact .inr (.inr (.inl ⟨_, by omega, by omega, by omega, rfl⟩))
  · exact .inr (.inr (.inr rfl))

theorem floating_parts (x : Binary64) : x.parts.Floating := by
  have hzero : Whole ['0'] := ⟨digits_replicate 1, by simp, fun _ => rfl⟩
  by_cases hm : x.mantissa = 0
  · rw [parts, if_pos hm]
    exact ⟨hzero, by decide, digits_replicate 1, .inl (by simp)⟩
  have hds := significant_spec (digits_shortest_pos (Nat.pos_of_ne_zero hm))
  have hdrop : ∀ k, Digits ((significant x.shortest.digits).drop k) :=
    fun k c hc => hds.whole.digits c (List.mem_of_mem_drop hc)
  have htake : ∀ k, 0 < k → Whole ((significant x.shortest.digits).take k) := by
    intro k hk
    refine whole_of_head (fun c hc => hds.whole.digits c (List.mem_of_mem_take hc)) ?_ ?_
    · rw [ne_eq, List.take_eq_nil_iff]
      exact not_or.mpr ⟨hk.ne', hds.whole.ne_nil⟩
    · rw [List.head?_take, if_neg hk.ne']
      exact hds.head
  rcases parts_cases x hm with ⟨k, h⟩ | ⟨k, hlen, h⟩ | ⟨k, hpos, hlen, hlt, h⟩ | h
  · rw [h]
    refine ⟨hzero, by simp, digits_of_append (digits_replicate k) hds.whole.digits, .inl ?_⟩
    simp [hds.whole.ne_nil]
  · rw [h]
    refine ⟨whole_of_head (digits_of_append hds.whole.digits (digits_replicate k)) ?_ ?_, ?_,
      digits_replicate 1, .inl (by simp)⟩
    · simp [hds.whole.ne_nil]
    · rw [List.head?_append_of_ne_nil _ hds.whole.ne_nil]
      exact hds.head
    · rw [List.length_append, List.length_replicate]
      omega
  · rw [h]
    refine ⟨htake k hpos, ?_, hdrop k, .inl ?_⟩
    · exact (List.length_take_le _ _).trans (by omega)
    · rw [ne_eq, List.drop_eq_nil_iff]
      omega
  · rw [h]
    exact ⟨htake 1 Nat.one_pos, (List.length_take_le _ _).trans (by omega), hdrop 1,
      .inr (by simp)⟩

/-- With a power of ten the parts spell the shortest decimal. -/
theorem size_power {x : Binary64} (hm : 0 < x.mantissa) :
    Parts.size ⟨(significant x.shortest.digits).take 1, (significant x.shortest.digits).drop 1,
      some (x.pointOf - 1)⟩ = x.shortest.size := by
  obtain ⟨hwhole, -, hlen, hvalue⟩ := significant_spec (digits_shortest_pos hm)
  have hpos := List.length_pos_iff.mpr hwhole.ne_nil
  rw [Parts.size, Decimal.size]
  dsimp only
  rw [List.take_append_drop, List.length_drop, Option.getD_some]
  conv_rhs => rw [← hvalue]
  rw [Nat.cast_mul, Nat.cast_pow, Nat.cast_ofNat, mul_assoc, ← zpow_natCast,
    ← zpow_add₀ (by norm_num)]
  congr 2
  unfold pointOf
  omega

theorem first_digit_pos {ds : List Char} (h : Whole ds) (hhead : ds.head? ≠ some '0') :
    0 < Nat.ofDigitChars 10 (ds.take 1) 0 := by
  obtain ⟨c, cs, rfl⟩ := List.exists_cons_of_ne_nil h.ne_nil
  have hc := Json.Numeral.digit_range (h.digits c (by simp))
  have hne : c.toNat ≠ 48 := by
    intro h48
    have hc0 : c = '0' := Char.toNat_inj.mp h48
    exact hhead (by rw [hc0]; rfl)
  rw [List.take_succ_cons, List.take_zero, Nat.ofDigitChars_cons, Nat.ofDigitChars_nil]
  have hzero : '0'.toNat = 48 := rfl
  omega

/-- Holds for numerals whose value is a floating number. -/
def hasFloat (n : Json.Numeral) : Bool :=
  match n.value with
  | .ok (.float _) => true
  | _ => false

theorem exists_of_hasFloat {n : Json.Numeral} (h : hasFloat n = true) :
    ∃ y, n.value = .ok (.float y) := by
  unfold hasFloat at h
  split at h
  · exact ⟨_, by assumption⟩
  · exact absurd h Bool.false_ne_true

-- one last place above these numbers is too close to the bound for the general argument
theorem hasFloat_largest : ∀ negative : Bool, ∀ below : Fin 3,
    hasFloat ((parts ⟨negative, 2 ^ 53 - 1 - below, mostExponent⟩).numeral negative) = true := by
  decide +kernel

theorem value_parts {x : Binary64} (hx : x.Finite) :
    ∃ y, (x.parts.numeral x.negative).value = .ok (.float y) := by
  by_cases hlargest : x.exponent = mostExponent ∧ 2 ^ 53 - 3 ≤ x.mantissa
  · obtain ⟨negative, mantissa, exponent⟩ := x
    obtain ⟨hexp, hlow⟩ := hlargest
    have hhigh := hx.mantissa
    dsimp only at hexp hlow hhigh
    subst hexp
    have hone := hasFloat_largest negative ⟨2 ^ 53 - 1 - mantissa, by omega⟩
    rw [show 2 ^ 53 - 1 - (2 ^ 53 - 1 - mantissa) = mantissa by omega] at hone
    exact exists_of_hasFloat hone
  apply Parts.value_numeral (floating_parts x)
  by_cases hm : x.mantissa = 0
  · left
    rw [parts, if_pos hm]
    exact le_rfl
  rcases parts_cases x hm with ⟨k, h⟩ | ⟨k, -, h⟩ | ⟨k, -, -, -, h⟩ | h
  · rw [h]
    exact .inl le_rfl
  · rw [h]
    exact .inl le_rfl
  · rw [h]
    exact .inl le_rfl
  · rw [h, size_power (Nat.pos_of_ne_zero hm)]
    have hds := significant_spec (digits_shortest_pos (Nat.pos_of_ne_zero hm))
    refine .inr ⟨first_digit_pos hds.whole hds.head, ?_⟩
    refine (size_shortest_le hx (Nat.pos_of_ne_zero hm)).trans ?_
    have htwo : (0 : ℚ) < 2 ^ x.exponent := zpow_pos (by norm_num) _
    by_cases hexp : x.exponent = mostExponent
    · have hlow : x.mantissa + 1 + 3 ≤ 2 ^ 53 := by
        have := not_and.mp hlargest hexp
        omega
      have hlow' : ((x.mantissa + 1 + 3 : Nat) : ℚ) ≤ (2 ^ 53 : Nat) := by exact_mod_cast hlow
      push_cast at hlow'
      rw [hexp] at htwo ⊢
      exact mul_le_mul_of_nonneg_right (by linarith) htwo.le
    · have hlt : x.exponent + 1 ≤ mostExponent := by
        have := hx.most
        omega
      have hdouble : (2 : ℚ) ^ x.exponent * 2 ≤ 2 ^ mostExponent := by
        rw [← zpow_add_one₀ (by norm_num)]
        exact zpow_le_zpow_right₀ (by norm_num) hlt
      have hm' : (x.mantissa : ℚ) + 1 ≤ 2 ^ 53 := by
        exact_mod_cast hx.mantissa
      calc ((x.mantissa : ℚ) + 1) * 2 ^ x.exponent
          ≤ 2 ^ 53 * 2 ^ x.exponent := mul_le_mul_of_nonneg_right hm' htwo.le
        _ ≤ (2 ^ 53 - 3) * (2 ^ x.exponent * 2) := by nlinarith
        _ ≤ (2 ^ 53 - 3) * 2 ^ mostExponent :=
          mul_le_mul_of_nonneg_left hdouble (by norm_num)

/-! ### Floating numbers in documents -/

/-- The number that the text of a number is read as. -/
def reread (x : Binary64) : Binary64 :=
  match (x.parts.numeral x.negative).value with
  | .ok (.float y) => y
  | _ => x

/-- The bytes of a number: perhaps a minus, and its parts. -/
theorem ofString_render (x : Binary64) :
    Utf8.ofString (x.render .document)
      = (if x.negative then [minus] else []) ++ Utf8.encode x.parts.text := by
  rw [Utf8.ofString, toList_render, Utf8.encode_append]
  cases x.negative <;> rfl

/-- **A written floating number is read back**, behind its sign, as a floating number. -/
theorem readNumber_parts {x : Binary64} (hx : x.Finite) {rest : List UInt8} (hr : Ends rest) :
    Json.readNumber x.negative (Utf8.encode x.parts.text ++ rest)
      = .ok (.float x.reread, rest) := by
  obtain ⟨y, hy⟩ := value_parts hx
  rw [Json.readNumber, Parts.read_text (floating_parts x) _ hr]
  simp only [bind, Except.bind, hy, reread]
  rfl

/-- The text begins with a digit behind its sign. -/
theorem encode_parts_cons (x : Binary64) :
    ∃ b bs, Utf8.encode x.parts.text = b :: bs ∧ Json.isDigit b = true := by
  obtain ⟨hd, hne, -⟩ := (floating_parts x).whole
  obtain ⟨c, cs, h⟩ := List.exists_cons_of_ne_nil hne
  rw [Parts.text, Utf8.encode_append, Utf8.encode_append, Json.Numeral.encode_digits hd, h]
  exact ⟨byte c, _, rfl, Json.Numeral.isDigit_byte (hd c (by simp [h]))⟩

end IdentityStore.Binary64
