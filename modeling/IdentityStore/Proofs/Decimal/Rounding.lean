/-
Reading a decimal seldom fails.

Every operation on floating-point numbers is one exact quotient and one rounding, so
all that has to be known is how far rounding goes: by half of the last place at most.
A quotient that is not tiny has fifty-three bits above that place, which makes the
error one part in 2^53.

A decimal is read by rounding its significand, rounding a power of ten, and rounding
their product.  Three errors of that size fit between a decimal that is at most
(2^53 - 3) * 2^971 and the largest number, (2^53 - 1) * 2^971, with the half place
that rounding allows above it: `isSome_ofDecimal?`.  Negative powers divide, and a
quotient of what fits 64 bits cannot be too large.

Sizes are rational numbers here, and powers of two stay powers: none of the proofs
multiplies 2^971 out.
-/
import IdentityStore.Decimal.Binary64
import Mathlib.Algebra.Order.Field.Rat
import Mathlib.Algebra.Order.Field.Power
import Mathlib.Tactic.Linarith
import Mathlib.Tactic.NormNum
import Mathlib.Tactic.Positivity
import Mathlib.Tactic.Ring
import Mathlib.Tactic.FieldSimp

namespace IdentityStore.Binary64

/-! ### Sizes -/

/-- The size of a number as a rational. -/
def size (x : Binary64) : ℚ := x.mantissa * 2 ^ x.exponent

theorem size_nonneg (x : Binary64) : 0 ≤ x.size := by
  unfold size
  positivity

theorem scale_pos (n : Nat) {d : Nat} (hd : 0 < d) (e : Int) : 0 < (scale n d e).2 := by
  unfold scale
  split_ifs
  · exact Nat.mul_pos hd (Nat.pow_pos (by decide))
  · exact hd

theorem scale_fst_pos {n : Nat} (hn : 0 < n) (d : Nat) (e : Int) : 0 < (scale n d e).1 := by
  unfold scale
  split_ifs
  · exact hn
  · exact Nat.mul_pos hn (Nat.pow_pos (by decide))

/-- Scaling divides by a power of two. -/
theorem scale_div (n : Nat) {d : Nat} (hd : 0 < d) (e : Int) :
    ((scale n d e).1 : ℚ) / (scale n d e).2 = n / d / 2 ^ e := by
  have hd' : (d : ℚ) ≠ 0 := by exact_mod_cast hd.ne'
  unfold scale
  split_ifs with h
  · obtain ⟨k, rfl⟩ := Int.eq_ofNat_of_zero_le h
    simp [div_div]
  · obtain ⟨k, hk⟩ := Int.eq_ofNat_of_zero_le (show 0 ≤ -e by omega)
    obtain rfl : e = -(k : Int) := by omega
    simp
    field_simp

theorem ratio_pos (x : Binary64) : 0 < x.ratio.2 := scale_pos _ (by decide) _

theorem ratio_div (x : Binary64) : (x.ratio.1 : ℚ) / x.ratio.2 = x.size := by
  unfold ratio size
  rw [scale_div _ (by decide)]
  simp

/-! ### Rounding a quotient -/

theorem roundQuotient_le (n : Nat) {d : Nat} (hd : 0 < d) :
    (roundQuotient n d : ℚ) ≤ n / d + 1 / 2 := by
  have hd' : (0 : ℚ) < d := by exact_mod_cast hd
  have hkey : ∀ q : Nat, 2 * q * d ≤ 2 * n + d → (q : ℚ) ≤ n / d + 1 / 2 := by
    intro q hq
    have hq' : (2 * q * d : ℚ) ≤ 2 * n + d := by exact_mod_cast hq
    rw [div_add_div _ _ hd'.ne' (by norm_num), le_div_iff₀ (by positivity)]
    linarith
  have hmod := Nat.div_add_mod n d
  have hsame : 2 * (n / d) * d = 2 * (d * (n / d)) := by ring
  have hnext : 2 * (n / d + 1) * d = 2 * (d * (n / d)) + 2 * d := by ring
  apply hkey
  unfold roundQuotient
  dsimp only
  split_ifs <;> omega

theorem le_roundQuotient (n : Nat) {d : Nat} (hd : 0 < d) :
    (n : ℚ) / d - 1 / 2 ≤ roundQuotient n d := by
  have hd' : (0 : ℚ) < d := by exact_mod_cast hd
  have hkey : ∀ q : Nat, 2 * n ≤ 2 * q * d + d → (n : ℚ) / d - 1 / 2 ≤ q := by
    intro q hq
    have hq' : (2 * n : ℚ) ≤ 2 * q * d + d := by exact_mod_cast hq
    rw [div_sub_div _ _ hd'.ne' (by norm_num), div_le_iff₀ (by positivity)]
    linarith
  have hmod := Nat.div_add_mod n d
  have hlt := Nat.mod_lt n hd
  have hsame : 2 * (n / d) * d = 2 * (d * (n / d)) := by ring
  have hnext : 2 * (n / d + 1) * d = 2 * (d * (n / d)) + 2 * d := by ring
  apply hkey
  unfold roundQuotient
  dsimp only
  split_ifs <;> omega

/-! ### The exponent -/

private theorem two_zpow_pos (e : Int) : (0 : ℚ) < 2 ^ e := zpow_pos (by norm_num) e

/-- A positive natural lies between two powers of two. -/
private theorem log2_bounds {n : Nat} (hn : 0 < n) :
    (2 : ℚ) ^ (n.log2 : Int) ≤ n ∧ (n : ℚ) < 2 ^ ((n.log2 : Int) + 1) := by
  constructor
  · rw [zpow_natCast]
    exact_mod_cast Nat.log2_self_le hn.ne'
  · rw [show ((n.log2 : Int) + 1) = ((n.log2 + 1 : Nat) : Int) by push_cast; rfl, zpow_natCast]
    exact_mod_cast Nat.lt_log2_self

/-- Where the guess of the exponent puts a quotient. -/
private theorem guess_bounds {n d : Nat} (hn : 0 < n) (hd : 0 < d) :
    (2 : ℚ) ^ (51 : Int) < n / d / 2 ^ ((n.log2 : Int) - d.log2 - 52) ∧
      (n : ℚ) / d / 2 ^ ((n.log2 : Int) - d.log2 - 52) < 2 ^ (53 : Int) := by
  obtain ⟨hn1, hn2⟩ := log2_bounds hn
  obtain ⟨hd1, hd2⟩ := log2_bounds hd
  have hd0 : (0 : ℚ) < d := by exact_mod_cast hd
  constructor
  · rw [lt_div_iff₀ (two_zpow_pos _), lt_div_iff₀ hd0, ← zpow_add₀ (by norm_num)]
    calc (2 : ℚ) ^ (51 + ((n.log2 : Int) - d.log2 - 52)) * d
        < 2 ^ (51 + ((n.log2 : Int) - d.log2 - 52)) * 2 ^ ((d.log2 : Int) + 1) :=
          mul_lt_mul_of_pos_left hd2 (two_zpow_pos _)
      _ = 2 ^ (n.log2 : Int) := by
          rw [← zpow_add₀ (by norm_num)]
          congr 1
          ring
      _ ≤ n := hn1
  · rw [div_lt_iff₀ (two_zpow_pos _), div_lt_iff₀ hd0, ← zpow_add₀ (by norm_num)]
    calc (n : ℚ) < 2 ^ ((n.log2 : Int) + 1) := hn2
      _ = 2 ^ (53 + ((n.log2 : Int) - d.log2 - 52)) * 2 ^ (d.log2 : Int) := by
          rw [← zpow_add₀ (by norm_num)]
          congr 1
          ring
      _ ≤ 2 ^ (53 + ((n.log2 : Int) - d.log2 - 52)) * d :=
          mul_le_mul_of_nonneg_left hd1 (two_zpow_pos _).le

private theorem floor_lt {a b k : Nat} (hb : 0 < b) : a / b < k ↔ (a : ℚ) / b < k := by
  have hb' : (0 : ℚ) < b := by exact_mod_cast hb
  rw [Nat.div_lt_iff_lt_mul hb, div_lt_iff₀ hb']
  exact_mod_cast Iff.rfl

/-- The mantissa at the chosen exponent is below 2^53, and it has 53 bits unless the
exponent is the least. -/
theorem exponentOf_spec {n d : Nat} (hn : 0 < n) (hd : 0 < d) :
    (n : ℚ) / d / 2 ^ exponentOf n d < 2 ^ 53 ∧
      (exponentOf n d = leastExponent ∨ 2 ^ 52 ≤ (n : ℚ) / d / 2 ^ exponentOf n d) := by
  obtain ⟨hlow, hhigh⟩ := guess_bounds hn hd
  have hscale := scale_div n hd ((n.log2 : Int) - d.log2 - 52)
  have hfloor := floor_lt (a := (scale n d ((n.log2 : Int) - d.log2 - 52)).1)
    (k := Nat.pow 2 52) (scale_pos n hd ((n.log2 : Int) - d.log2 - 52))
  rw [hscale] at hfloor
  have hnd : (0 : ℚ) < n / d := by positivity
  unfold exponentOf
  dsimp only
  set g : Int := (n.log2 : Int) - d.log2 - 52 with hg
  -- The exponent before it is cut off below.
  obtain ⟨e, he, hle, hlt⟩ : ∃ e : Int,
      (if (scale n d g).1 / (scale n d g).2 < Nat.pow 2 52 then g - 1 else g) = e ∧
      (2 : ℚ) ^ 52 ≤ n / d / 2 ^ e ∧ (n : ℚ) / d / 2 ^ e < 2 ^ 53 := by
    split_ifs with h
    · rw [hfloor] at h
      refine ⟨g - 1, rfl, ?_, ?_⟩
      · rw [zpow_sub_one₀ (by norm_num), ← div_div, div_inv_eq_mul]
        norm_num at hlow ⊢
        linarith
      · rw [zpow_sub_one₀ (by norm_num), ← div_div, div_inv_eq_mul]
        norm_num at h ⊢
        linarith
    · rw [hfloor] at h
      refine ⟨g, rfl, ?_, ?_⟩
      · norm_num at h ⊢
        linarith
      · norm_num at hhigh ⊢
        linarith
  rw [he]
  rcases le_total leastExponent e with hmax | hmax
  · rw [max_eq_right hmax]
    exact ⟨hlt, Or.inr hle⟩
  · rw [max_eq_left hmax]
    refine ⟨lt_of_le_of_lt ?_ hlt, Or.inl rfl⟩
    exact div_le_div_of_nonneg_left hnd.le (two_zpow_pos _) (zpow_le_zpow_right₀ (by norm_num) hmax)

/-! ### Rounding to a number -/

/-- The finite numbers: a mantissa of at most 53 bits and an exponent in range. -/
structure Finite (x : Binary64) : Prop where
  mantissa : x.mantissa < 2 ^ 53
  least : leastExponent ≤ x.exponent
  most : x.exponent ≤ mostExponent

theorem leastExponent_le_exponentOf (n d : Nat) : leastExponent ≤ exponentOf n d :=
  le_max_left _ _

/-- The rounded mantissa and what it is rounded from. -/
private theorem mantissa_bounds (n : Nat) {d : Nat} (hd : 0 < d) (e : Int) :
    (roundQuotient (scale n d e).1 (scale n d e).2 : ℚ) ≤ n / d / 2 ^ e + 1 / 2 ∧
      (n : ℚ) / d / 2 ^ e - 1 / 2 ≤ roundQuotient (scale n d e).1 (scale n d e).2 := by
  rw [← scale_div n hd e]
  exact ⟨roundQuotient_le _ (scale_pos n hd e), le_roundQuotient _ (scale_pos n hd e)⟩

private theorem roundQuotient_le_of_lt {n d k : Nat} (hd : 0 < d)
    (h : (n : ℚ) / d < k + 1 / 2) : roundQuotient n d ≤ k := by
  have hle := roundQuotient_le n hd
  have hlt : (roundQuotient n d : ℚ) < (k + 1 : Nat) := by
    push_cast
    linarith
  have hnat : roundQuotient n d < k + 1 := by exact_mod_cast hlt
  omega

/-- What rounding yields is finite. -/
theorem finite_of_ofRatio? {negative : Bool} {n d : Nat} (hd : 0 < d) {x : Binary64}
    (h : ofRatio? negative n d = some x) : x.Finite := by
  unfold ofRatio? at h
  dsimp only at h
  have hle := leastExponent_le_exponentOf n d
  split_ifs at h with hn hm he he
  · cases h
    exact ⟨by norm_num, le_refl _, show leastExponent ≤ mostExponent by decide⟩
  · cases h
    exact ⟨by norm_num, by dsimp only; omega, he⟩
  · cases h
    refine ⟨?_, hle, he⟩
    have hbound := roundQuotient_le_of_lt (k := 2 ^ 53)
      (scale_pos n hd (exponentOf n d)) (by
        rw [scale_div n hd]
        have := (exponentOf_spec (Nat.pos_of_ne_zero hn) hd).1
        push_cast
        linarith)
    exact lt_of_le_of_ne hbound hm

/-- The size of the number that a quotient is rounded to. -/
private theorem size_of_ofRatio? {negative : Bool} {n d : Nat} (hn : 0 < n) {x : Binary64}
    (h : ofRatio? negative n d = some x) :
    x.size = roundQuotient (scale n d (exponentOf n d)).1 (scale n d (exponentOf n d)).2
      * 2 ^ exponentOf n d := by
  unfold ofRatio? at h
  dsimp only at h
  rw [if_neg hn.ne'] at h
  split_ifs at h with hm he he
  · cases h
    rw [hm, size]
    dsimp only
    rw [zpow_add_one₀ (by norm_num)]
    norm_num
    ring
  · cases h
    rfl

/-- Rounding adds at most half of the last place. -/
private theorem size_bounds {negative : Bool} {n d : Nat} (hn : 0 < n) (hd : 0 < d)
    {x : Binary64} (h : ofRatio? negative n d = some x) :
    x.size ≤ n / d + 2 ^ exponentOf n d / 2 ∧
      (n : ℚ) / d - 2 ^ exponentOf n d / 2 ≤ x.size := by
  have hpos := two_zpow_pos (exponentOf n d)
  obtain ⟨hup, hlow⟩ := mantissa_bounds n hd (exponentOf n d)
  rw [size_of_ofRatio? hn h]
  have hcancel : (n : ℚ) / d / 2 ^ exponentOf n d * 2 ^ exponentOf n d = n / d := by
    field_simp
  constructor
  · have := mul_le_mul_of_nonneg_right hup hpos.le
    rw [add_mul, hcancel] at this
    linarith
  · have := mul_le_mul_of_nonneg_right hlow hpos.le
    rw [sub_mul, hcancel] at this
    linarith

/-- Half of the last place is a small part of a quotient that is not tiny. -/
private theorem place_le {n d : Nat} (hn : 0 < n) (hd : 0 < d)
    (h : (2 : ℚ) ^ 52 * 2 ^ leastExponent ≤ n / d) :
    (2 : ℚ) ^ exponentOf n d ≤ n / d / 2 ^ 52 := by
  obtain ⟨-, hleast | hle⟩ := exponentOf_spec hn hd
  · rw [hleast, le_div_iff₀ (by norm_num)]
    linarith
  · rw [le_div_iff₀ (two_zpow_pos _)] at hle
    rw [le_div_iff₀ (by norm_num)]
    linarith

/-- Rounding a quotient that is not tiny makes it larger by at most one part in
2^53. -/
theorem size_ofRatio?_le {negative : Bool} {n d : Nat} (hn : 0 < n) (hd : 0 < d)
    (h : (2 : ℚ) ^ 52 * 2 ^ leastExponent ≤ n / d) {x : Binary64}
    (hx : ofRatio? negative n d = some x) : x.size ≤ n / d * (1 + 1 / 2 ^ 53) := by
  have hplace := place_le hn hd h
  have hup := (size_bounds hn hd hx).1
  have hhalf : (n : ℚ) / d / 2 ^ 52 / 2 = n / d * (1 / 2 ^ 53) := by ring
  linarith

/-- Nor does rounding halve such a quotient. -/
theorem half_le_size_ofRatio? {negative : Bool} {n d : Nat} (hn : 0 < n) (hd : 0 < d)
    (h : (2 : ℚ) ^ 52 * 2 ^ leastExponent ≤ n / d) {x : Binary64}
    (hx : ofRatio? negative n d = some x) : (n : ℚ) / d / 2 ≤ x.size := by
  have hplace := place_le hn hd h
  have hlow := (size_bounds hn hd hx).2
  have hnd : (0 : ℚ) ≤ n / d := by positivity
  have hhalf : (n : ℚ) / d / 2 ^ 52 ≤ n / d := div_le_self hnd (by norm_num)
  linarith

/-- However small a quotient is, rounding at most doubles it or makes it one. -/
theorem size_ofRatio?_le_double {negative : Bool} {n d : Nat} (hd : 0 < d) {x : Binary64}
    (hx : ofRatio? negative n d = some x) : x.size ≤ 2 * (n / d) + 1 := by
  have hnd : (0 : ℚ) ≤ n / d := by positivity
  rcases Nat.eq_zero_or_pos n with rfl | hn
  · unfold ofRatio? at hx
    rw [if_pos rfl] at hx
    cases hx
    simp [size]
  · have hup := (size_bounds hn hd hx).1
    rcases le_total ((2 : ℚ) ^ 52 * 2 ^ leastExponent) ((n : ℚ) / d) with h | h
    · have hplace := place_le hn hd h
      have hhalf : (n : ℚ) / d / 2 ^ 52 ≤ n / d := div_le_self hnd (by norm_num)
      linarith
    · obtain ⟨-, hleast | hle⟩ := exponentOf_spec hn hd
      · rw [hleast] at hup
        have hone : (2 : ℚ) ^ leastExponent ≤ 1 :=
          zpow_le_one_of_nonpos₀ (by norm_num) (by decide)
        linarith
      · rw [le_div_iff₀ (two_zpow_pos _)] at hle
        linarith [two_zpow_pos (exponentOf n d)]

/-- **A quotient below the largest number and half of its last place has a number near
it.** -/
theorem isSome_ofRatio? {negative : Bool} {n d : Nat} (hd : 0 < d)
    (h : (n : ℚ) / d < (2 ^ 53 - 1 / 2) * 2 ^ mostExponent) :
    (ofRatio? negative n d).isSome = true := by
  rcases Nat.eq_zero_or_pos n with rfl | hn
  · rfl
  obtain ⟨-, hspec⟩ := exponentOf_spec hn hd
  have hmost : exponentOf n d ≤ mostExponent := by
    by_contra hgt
    rcases hspec with hleast | hle
    · rw [hleast] at hgt
      exact hgt (by decide)
    · rw [le_div_iff₀ (two_zpow_pos _)] at hle
      have hmono : (2 : ℚ) ^ (mostExponent + 1) ≤ 2 ^ exponentOf n d :=
        zpow_le_zpow_right₀ (by norm_num) (by omega)
      rw [zpow_add_one₀ (by norm_num)] at hmono
      linarith [two_zpow_pos mostExponent]
  unfold ofRatio?
  dsimp only
  rw [if_neg hn.ne']
  by_cases hm : roundQuotient (scale n d (exponentOf n d)).1 (scale n d (exponentOf n d)).2
      = Nat.pow 2 53
  · rw [if_pos hm, if_pos]
    · rfl
    · dsimp only
      by_contra hgt
      have he : exponentOf n d = mostExponent := by omega
      have hle := roundQuotient_le_of_lt (k := 2 ^ 53 - 1) (scale_pos n hd (exponentOf n d)) (by
        rw [scale_div n hd, he, div_lt_iff₀ (two_zpow_pos _)]
        push_cast
        linarith)
      rw [hm] at hle
      exact absurd hle (by decide)
  · rw [if_neg hm, if_pos hmost]
    rfl

/-! ### Products, quotients and powers of ten -/

theorem product_div (x y : Binary64) :
    ((x.ratio.1 * y.ratio.1 : Nat) : ℚ) / (x.ratio.2 * y.ratio.2 : Nat) = x.size * y.size := by
  push_cast
  rw [mul_div_mul_comm, ratio_div, ratio_div]

theorem quotient_div (x y : Binary64) :
    ((x.ratio.1 * y.ratio.2 : Nat) : ℚ) / (x.ratio.2 * y.ratio.1 : Nat) = x.size / y.size := by
  push_cast
  rw [← ratio_div x, ← ratio_div y, div_div_div_eq]

/-- A natural that is not zero is far from tiny. -/
private theorem natural_not_tiny {n : Nat} (hn : 0 < n) :
    (2 : ℚ) ^ 52 * 2 ^ leastExponent ≤ n / (1 : Nat) := by
  have hone : (1 : ℚ) ≤ n := by exact_mod_cast hn
  have htiny : (2 : ℚ) ^ 52 * 2 ^ leastExponent ≤ 1 := by
    rw [← zpow_natCast, ← zpow_add₀ (by norm_num)]
    exact zpow_le_one_of_nonpos₀ (by norm_num) (by decide)
  simpa using htiny.trans hone

/-- The powers are variables here, so that nothing tries to multiply them out. -/
private theorem tens_lt_of_nat {a b : Nat} (h : 2 * 10 ^ a < 18014398509481983 * 2 ^ b) :
    (10 : ℚ) ^ a < (2 ^ 53 - 1 / 2) * 2 ^ (b : Int) := by
  have hrat : (2 : ℚ) * 10 ^ a < 18014398509481983 * 2 ^ b := by exact_mod_cast h
  rw [zpow_natCast]
  linarith

/-- The largest power of ten is below the largest number. -/
private theorem tens_lt_largest :
    (10 : ℚ) ^ mostTen < (2 ^ 53 - 1 / 2) * 2 ^ mostExponent :=
  tens_lt_of_nat (a := 308) (b := 971) (by decide +kernel)

/-- There is a number near every power of ten up to the largest one, and it is neither
much larger nor much smaller. -/
private theorem exists_ten {k : Nat} (hk : k ≤ mostTen) :
    ∃ t, ofRatio? false (Nat.pow 10 k) 1 = some t ∧
      t.size ≤ 10 ^ k * (1 + 1 / 2 ^ 53) ∧ 1 / 2 ≤ t.size ∧ 0 < t.ratio.1 := by
  have hpos : 0 < Nat.pow 10 k := Nat.pow_pos (by decide)
  have hcast : ((Nat.pow 10 k : Nat) : ℚ) / (1 : Nat) = 10 ^ k := by
    rw [Nat.cast_one, div_one]
    exact_mod_cast rfl
  have hsome : (ofRatio? false (Nat.pow 10 k) 1).isSome = true := by
    refine isSome_ofRatio? (by decide) ?_
    rw [hcast]
    exact (pow_le_pow_right₀ (by norm_num) hk).trans_lt tens_lt_largest
  obtain ⟨t, ht⟩ := Option.isSome_iff_exists.mp hsome
  have hup := size_ofRatio?_le hpos (by decide) (natural_not_tiny hpos) ht
  have hlow := half_le_size_ofRatio? hpos (by decide) (natural_not_tiny hpos) ht
  rw [hcast] at hup hlow
  have hone : (1 : ℚ) ≤ 10 ^ k := one_le_pow₀ (by norm_num)
  refine ⟨t, ht, hup, by linarith, ?_⟩
  rcases Nat.eq_zero_or_pos t.ratio.1 with hz | hz
  · have := ratio_div t
    rw [hz] at this
    simp at this
    linarith
  · exact hz

/-- A product of powers of two that nothing multiplies out. -/
private theorem le_largest {q : ℚ} (h : q ≤ 2 ^ 100) :
    q < (2 ^ 53 - 1 / 2) * 2 ^ mostExponent := by
  have hpow : (2 : ℚ) ^ (50 : Int) ≤ 2 ^ mostExponent :=
    zpow_le_zpow_right₀ (by norm_num) (by decide)
  norm_num at hpow h ⊢
  linarith

theorem isSome_timesTen? {x : Binary64} {k : Nat} (hk : k ≤ mostTen)
    (h : x.size * (10 ^ k * (1 + 1 / 2 ^ 53)) < (2 ^ 53 - 1 / 2) * 2 ^ mostExponent) :
    (x.timesTen? k).isSome = true := by
  obtain ⟨t, ht, hup, -, -⟩ := exists_ten hk
  unfold timesTen?
  rw [ht, Option.bind_some]
  unfold mul?
  refine isSome_ofRatio? (Nat.mul_pos (ratio_pos x) (ratio_pos t)) ?_
  rw [product_div]
  exact (mul_le_mul_of_nonneg_left hup (size_nonneg x)).trans_lt h

/-- Dividing by a power of ten yields a number, at most five times as large. -/
theorem exists_overTen? {x : Binary64} {k : Nat} (hk : k ≤ mostTen) (h : x.size ≤ 2 ^ 90) :
    ∃ y, x.overTen? k = some y ∧ y.size ≤ 5 * x.size + 1 := by
  obtain ⟨t, ht, -, hlow, hpos⟩ := exists_ten hk
  have hd : 0 < x.ratio.2 * t.ratio.1 := Nat.mul_pos (ratio_pos x) hpos
  have hquot : x.size / t.size ≤ 2 * x.size := by
    rw [div_le_iff₀ (by linarith)]
    have := mul_le_mul_of_nonneg_left hlow (size_nonneg x)
    linarith
  have hsome : (x.overTen? k).isSome = true := by
    unfold overTen?
    rw [ht, Option.bind_some]
    unfold div?
    refine isSome_ofRatio? hd ?_
    rw [quotient_div]
    refine le_largest (hquot.trans ?_)
    norm_num at h ⊢
    linarith
  obtain ⟨y, hy⟩ := Option.isSome_iff_exists.mp hsome
  refine ⟨y, hy, ?_⟩
  unfold overTen? at hy
  rw [ht, Option.bind_some] at hy
  have hdouble := size_ofRatio?_le_double hd hy
  rw [quotient_div] at hdouble
  linarith [size_nonneg x]

/-- **A decimal that is not too large has a number.** -/
theorem isSome_ofDecimal? {negative : Bool} {significand : Nat} {k : Int}
    (hs : significand < 2 ^ 64)
    (h : k ≤ 0 ∨ k ≤ mostTen ∧
      (significand : ℚ) * 10 ^ k ≤ (2 ^ 53 - 3) * 2 ^ mostExponent) :
    (ofDecimal? negative significand k).isSome = true := by
  have hs' : (significand : ℚ) < 2 ^ 64 := by exact_mod_cast hs
  have hsome : (ofRatio? negative significand 1).isSome = true := by
    refine isSome_ofRatio? (by decide) (le_largest ?_)
    rw [Nat.cast_one, div_one]
    linarith
  obtain ⟨x, hx⟩ := Option.isSome_iff_exists.mp hsome
  have hdouble := size_ofRatio?_le_double (by decide) hx
  rw [Nat.cast_one, div_one] at hdouble
  have hsmall : x.size ≤ 2 ^ 66 := by linarith
  unfold ofDecimal?
  rw [hx]
  simp only [Option.bind_eq_bind, Option.bind_some]
  split_ifs with hzero hk hten hj hj'
  · rfl
  · -- The significand and the power of ten are both rounded, and so is their product.
    have hup := size_ofRatio?_le (Nat.pos_of_ne_zero hzero) (by decide)
      (natural_not_tiny (Nat.pos_of_ne_zero hzero)) hx
    rw [Nat.cast_one, div_one] at hup
    refine isSome_timesTen? (by omega) ?_
    have hpow : (10 : ℚ) ^ k = 10 ^ k.toNat := by
      rw [← zpow_natCast, Int.toNat_of_nonneg hk]
    have hbound : (significand : ℚ) * 10 ^ k.toNat ≤ (2 ^ 53 - 3) * 2 ^ mostExponent := by
      rcases h with hle | ⟨-, hle⟩
      · obtain rfl : k = 0 := by omega
        refine le_trans ?_ (show (2 : ℚ) ^ 100 ≤ _ from ?_)
        · rw [Int.toNat_zero, pow_zero, mul_one]
          linarith
        · have hpow : (2 : ℚ) ^ (50 : Int) ≤ 2 ^ mostExponent :=
            zpow_le_zpow_right₀ (by norm_num) (by decide)
          norm_num at hpow ⊢
          linarith
      · rwa [hpow] at hle
    have hpos := two_zpow_pos mostExponent
    calc x.size * (10 ^ k.toNat * (1 + 1 / 2 ^ 53))
        ≤ significand * (1 + 1 / 2 ^ 53) * (10 ^ k.toNat * (1 + 1 / 2 ^ 53)) :=
          mul_le_mul_of_nonneg_right hup (by positivity)
      _ = significand * 10 ^ k.toNat * (1 + 1 / 2 ^ 53) ^ 2 := by ring
      _ ≤ (2 ^ 53 - 3) * 2 ^ mostExponent * (1 + 1 / 2 ^ 53) ^ 2 :=
          mul_le_mul_of_nonneg_right hbound (by positivity)
      _ = (2 ^ 53 - 3) * (1 + 1 / 2 ^ 53) ^ 2 * 2 ^ mostExponent := by ring
      _ < (2 ^ 53 - 1 / 2) * 2 ^ mostExponent :=
          mul_lt_mul_of_pos_right (by norm_num) hpos
  · exact absurd (by omega) hten
  · obtain ⟨y, hy, -⟩ := exists_overTen? (x := x) (k := (-k).toNat) hj
      (hsmall.trans (by norm_num))
    rw [hy]
    rfl
  · obtain ⟨y, hy, hle⟩ := exists_overTen? (x := x) (k := mostTen) (le_refl _)
      (hsmall.trans (by norm_num))
    obtain ⟨z, hz, -⟩ := exists_overTen? (x := y) (k := (-k).toNat - mostTen) (by omega)
      (by linarith)
    rw [hy, Option.bind_some, hz]
    rfl
  · rfl

/-! ### Decimals that are read -/

theorem finite_zero (negative : Bool) : (⟨negative, 0, leastExponent⟩ : Binary64).Finite :=
  ⟨by norm_num, le_rfl, show leastExponent ≤ mostExponent by decide⟩

theorem finite_of_timesTen? {x y : Binary64} {k : Nat} (h : x.timesTen? k = some y) :
    y.Finite := by
  obtain ⟨t, -, hy⟩ := Option.bind_eq_some_iff.mp h
  exact finite_of_ofRatio? (Nat.mul_pos (ratio_pos x) (ratio_pos t)) hy

theorem finite_of_overTen? {x y : Binary64} {k : Nat} (hk : k ≤ mostTen)
    (h : x.overTen? k = some y) : y.Finite := by
  obtain ⟨t, ht, -, -, hpos⟩ := exists_ten hk
  rw [overTen?, ht, Option.bind_some] at h
  exact finite_of_ofRatio? (Nat.mul_pos (ratio_pos x) hpos) h

/-- **What a decimal is read as is a number.** -/
theorem finite_of_ofDecimal? {negative : Bool} {significand : Nat} {k : Int} {y : Binary64}
    (h : ofDecimal? negative significand k = some y) : y.Finite := by
  obtain ⟨x, -, h⟩ := Option.bind_eq_some_iff.mp h
  dsimp only at h
  split_ifs at h with hzero hk hmost hone htwo
  · cases h
    exact finite_zero negative
  · exact finite_of_timesTen? h
  · exact finite_of_overTen? hone h
  · obtain ⟨z, -, hy⟩ := Option.bind_eq_some_iff.mp h
    exact finite_of_overTen? (by omega) hy
  · cases h
    exact finite_zero negative

end IdentityStore.Binary64
