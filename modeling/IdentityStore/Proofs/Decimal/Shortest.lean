/-
The shortest decimal stays near its number.

Every grid of decimals that is tried has a point just below the number and one just
above it, and only these two are ever given.  One that is given before the last grid
lies in the interval of the number, so it is at most half a last place too large; the
last grid, of seventeen digits, is itself finer than a last place.  Hence the shortest
decimal is at most one last place above the number: `size_shortest_le`.

A grid of at least one digit reaches down to the first digit of the number, so that
the point below it is not zero: `digits_shortest_pos`.
-/
import IdentityStore.Decimal.Shortest
import IdentityStore.Proofs.Decimal.Rounding

namespace IdentityStore.Binary64

/-! ### Sizes of decimals -/

/-- The size of a decimal as a rational. -/
def Decimal.size (d : Decimal) : ℚ := d.digits * 10 ^ d.exponent

theorem width_le_iff {n k : Nat} (hk : 0 < k) : width n ≤ k ↔ n < 10 ^ k :=
  Nat.length_toDigits_le_iff (by decide) hk

theorem width_pos (n : Nat) : 0 < width n := Nat.length_toDigits_pos

theorem lt_pow_width (n : Nat) : n < 10 ^ width n := (width_le_iff (width_pos n)).mp (le_refl _)

theorem pow_width_le {n : Nat} (hn : 0 < n) : 10 ^ (width n - 1) ≤ n := by
  rcases Nat.eq_zero_or_pos (width n - 1) with h | h
  · rw [h]
    exact hn
  · have hnot : ¬ width n ≤ width n - 1 := by omega
    rw [width_le_iff h] at hnot
    omega

/-- The power of ten of a quotient's first digit is no larger than the quotient. -/
theorem pow_magnitude_le {n d : Nat} (hn : 0 < n) (hd : 0 < d) :
    (10 : ℚ) ^ magnitude n d ≤ n / d := by
  have hn' : (0 : ℚ) < n := by exact_mod_cast hn
  have hd' : (0 : ℚ) < d := by exact_mod_cast hd
  unfold magnitude
  split_ifs with h
  · have hq : 0 < n / d := Nat.div_pos h hd
    have hw := width_pos (n / d)
    rw [show ((width (n / d) : Int) - 1) = ((width (n / d) - 1 : Nat) : Int) by omega,
      zpow_natCast, le_div_iff₀ hd']
    have hnat : 10 ^ (width (n / d) - 1) * d ≤ n :=
      (Nat.mul_le_mul_right d (pow_width_le hq)).trans (Nat.div_mul_le_self n d)
    exact_mod_cast hnat
  · rw [zpow_neg, zpow_natCast, inv_eq_one_div, div_le_div_iff₀ (by positivity) hd']
    have hlt : (d - 1) / n < 10 ^ width ((d - 1) / n) := lt_pow_width _
    have hnat : 1 * d ≤ n * 10 ^ width ((d - 1) / n) := by
      rw [Nat.div_lt_iff_lt_mul hn, Nat.mul_comm] at hlt
      omega
    exact_mod_cast hnat

/-! ### The neighbours of a number -/

/-- The power of ten that the last of `count` digits of a number counts. -/
def place (x : Binary64) (count : Nat) : Int := magnitude x.ratio.1 x.ratio.2 - count + 1

/-- A power of ten as a quotient. -/
def ten (p : Int) : Nat × Nat :=
  if 0 ≤ p then (Nat.pow 10 p.toNat, 1) else (1, Nat.pow 10 (-p).toNat)

/-- A quarter of the last place of a number as a quotient. -/
def quarter (x : Binary64) : Nat × Nat := scale 1 1 (2 - x.exponent)

/-- The grid point below a number. -/
def below (x : Binary64) (count : Nat) : Nat :=
  x.quarters.2.1 * (x.quarter.1 * (ten (x.place count)).2)
    / ((ten (x.place count)).1 * x.quarter.2)

/-- The grid point nearer to a number. -/
def nearer (x : Binary64) (count : Nat) : Nat :=
  let grid := (ten (x.place count)).1 * x.quarter.2
  let rest := x.quarters.2.1 * (x.quarter.1 * (ten (x.place count)).2) % grid
  if 2 * rest < grid then x.below count
  else if grid < 2 * rest then x.below count + 1
  else if x.below count % 2 = 0 then x.below count else x.below count + 1

/-- Holds for a grid point in the interval of a number. -/
def inside (x : Binary64) (count c : Nat) : Bool :=
  let grid := (ten (x.place count)).1 * x.quarter.2
  let unit := x.quarter.1 * (ten (x.place count)).2
  if x.mantissa % 2 = 0 then x.quarters.1 * unit ≤ c * grid && c * grid ≤ x.quarters.2.2 * unit
  else x.quarters.1 * unit < c * grid && c * grid < x.quarters.2.2 * unit

theorem ten_pos (p : Int) : 0 < (ten p).1 ∧ 0 < (ten p).2 := by
  unfold ten
  split_ifs
  · exact ⟨Nat.pow_pos (by norm_num), Nat.one_pos⟩
  · exact ⟨Nat.one_pos, Nat.pow_pos (by norm_num)⟩

theorem ten_div (p : Int) : ((ten p).1 : ℚ) / (ten p).2 = 10 ^ p := by
  unfold ten
  split_ifs with h
  · obtain ⟨k, rfl⟩ := Int.eq_ofNat_of_zero_le h
    simp
  · obtain ⟨k, hk⟩ := Int.eq_ofNat_of_zero_le (show 0 ≤ -p by omega)
    obtain rfl : p = -(k : Int) := by omega
    simp

theorem quarter_div (x : Binary64) : (x.quarter.1 : ℚ) / x.quarter.2 = 2 ^ x.exponent / 4 := by
  rw [quarter, scale_div 1 Nat.one_pos, show 2 - x.exponent = -(x.exponent - 2) by ring, zpow_neg,
    div_inv_eq_mul, zpow_sub₀ (by norm_num)]
  norm_num

/-- Comparing multiples of the grid with quarters of the last place is comparing
sizes. -/
theorem grid_le_iff (x : Binary64) (count c k : Nat) :
    c * ((ten (x.place count)).1 * x.quarter.2) ≤ k * (x.quarter.1 * (ten (x.place count)).2) ↔
      (c : ℚ) * 10 ^ x.place count ≤ k * (2 ^ x.exponent / 4) := by
  have ht : (0 : ℚ) < (ten (x.place count)).2 := by exact_mod_cast (ten_pos _).2
  have hq : (0 : ℚ) < x.quarter.2 := by exact_mod_cast scale_pos 1 Nat.one_pos _
  rw [← ten_div, ← quarter_div, ← mul_div_assoc, ← mul_div_assoc, div_le_div_iff₀ ht hq,
    mul_assoc, mul_assoc]
  exact_mod_cast Iff.rfl

/-- The neighbours are the grid points around the number; the one that is given lies in
the interval, or neither does. -/
theorem neighbour_cases (x : Binary64) (count : Nat) :
    (x.neighbour count).1.exponent = x.place count ∧
      ((x.neighbour count).1.digits = x.below count ∨
        (x.neighbour count).1.digits = x.below count + 1) ∧
      ((x.neighbour count).2 = true → x.inside count (x.neighbour count).1.digits = true) := by
  obtain ⟨nearer, farther, hnearer, hfarther, heq⟩ : ∃ nearer farther,
      (nearer = x.below count ∨ nearer = x.below count + 1) ∧
      (farther = x.below count ∨ farther = x.below count + 1) ∧
      x.neighbour count =
        if x.inside count nearer then (⟨nearer, x.place count⟩, true)
        else if x.inside count farther then (⟨farther, x.place count⟩, true)
        else (⟨nearer, x.place count⟩, false) := by
    refine ⟨x.nearer count, if x.nearer count = x.below count then x.below count + 1
      else x.below count, ?_, ?_, rfl⟩
    · simp only [nearer]
      split_ifs <;> simp only [true_or, or_true]
    · split_ifs <;> simp
  rw [heq]
  split_ifs with h h'
  · exact ⟨rfl, hnearer, fun _ => h⟩
  · exact ⟨rfl, hfarther, fun _ => h'⟩
  · exact ⟨rfl, hnearer, False.elim⟩

theorem mantissa_quarters (x : Binary64) :
    ((4 * x.mantissa : Nat) : ℚ) * (2 ^ x.exponent / 4) = x.size := by
  rw [size]
  push_cast
  ring

theorem below_le (x : Binary64) (count : Nat) : x.below count * 10 ^ x.place count ≤ x.size := by
  have h := (grid_le_iff x count (x.below count) (4 * x.mantissa)).mp (Nat.div_mul_le_self _ _)
  rwa [mantissa_quarters] at h

theorem lt_below_succ (x : Binary64) (count : Nat) :
    x.size < (x.below count + 1 : Nat) * (10 : ℚ) ^ x.place count := by
  have hgrid : 0 < (ten (x.place count)).1 * x.quarter.2 :=
    Nat.mul_pos (ten_pos _).1 (scale_pos 1 Nat.one_pos _)
  have h := mt (grid_le_iff x count (x.below count + 1) (4 * x.mantissa)).mpr (by
    rw [not_le]
    exact (Nat.div_lt_iff_lt_mul hgrid).mp (Nat.lt_succ_self _))
  rwa [mantissa_quarters, not_le] at h

theorem le_of_inside {x : Binary64} {count c : Nat} (h : x.inside count c = true) :
    (c : ℚ) * 10 ^ x.place count ≤ (x.mantissa + 1 / 2) * 2 ^ x.exponent := by
  have hle : c * ((ten (x.place count)).1 * x.quarter.2)
      ≤ x.quarters.2.2 * (x.quarter.1 * (ten (x.place count)).2) := by
    unfold inside at h
    split_ifs at h
    · rw [Bool.and_eq_true, decide_eq_true_iff, decide_eq_true_iff] at h
      exact h.2
    · rw [Bool.and_eq_true, decide_eq_true_iff, decide_eq_true_iff] at h
      exact h.2.le
  rw [grid_le_iff] at hle
  refine hle.trans (le_of_eq ?_)
  rw [quarters]
  push_cast
  ring

/-- A grid of at least one digit has a point other than zero below a number other than
zero. -/
theorem below_pos {x : Binary64} (hx : 0 < x.mantissa) {count : Nat} (hcount : 0 < count) :
    0 < x.below count := by
  rcases Nat.eq_zero_or_pos (x.below count) with h | h
  · have hlt := lt_below_succ x count
    have hfirst : (10 : ℚ) ^ magnitude x.ratio.1 x.ratio.2 ≤ x.size := by
      rw [← ratio_div]
      exact pow_magnitude_le (scale_fst_pos hx 1 _) (ratio_pos x)
    have hplace : (10 : ℚ) ^ x.place count ≤ 10 ^ magnitude x.ratio.1 x.ratio.2 :=
      zpow_le_zpow_right₀ (by norm_num) (by unfold place; omega)
    rw [h, Nat.zero_add, Nat.cast_one, one_mul] at hlt
    linarith
  · exact h

theorem digits_neighbour_pos {x : Binary64} (hx : 0 < x.mantissa) {count : Nat}
    (hcount : 0 < count) : 0 < (x.neighbour count).1.digits := by
  have hbelow := below_pos hx hcount
  rcases (neighbour_cases x count).2.1 with h | h <;> omega

theorem size_neighbour_of_inside {x : Binary64} {count : Nat} (h : (x.neighbour count).2 = true) :
    (x.neighbour count).1.size ≤ (x.mantissa + 1 / 2) * 2 ^ x.exponent := by
  obtain ⟨hexp, -, hinside⟩ := neighbour_cases x count
  rw [Decimal.size, hexp]
  exact le_of_inside (hinside h)

/-- The last grid is finer than the last place. -/
theorem size_neighbour_le {x : Binary64} (hx : x.Finite) (hpos : 0 < x.mantissa) :
    (x.neighbour 17).1.size ≤ (x.mantissa + 1) * 2 ^ x.exponent := by
  obtain ⟨hexp, hdigits, -⟩ := neighbour_cases x 17
  have hle := below_le x 17
  have hten : (0 : ℚ) < 10 ^ x.place 17 := zpow_pos (by norm_num) _
  have htwo : (0 : ℚ) < 2 ^ x.exponent := zpow_pos (by norm_num) _
  -- seventeen digits of a number below 2^53 last places reach below one of them
  have hfine : (10 : ℚ) ^ x.place 17 ≤ 2 ^ x.exponent := by
    have hfirst : (10 : ℚ) ^ magnitude x.ratio.1 x.ratio.2 ≤ x.size := by
      rw [← ratio_div]
      exact pow_magnitude_le (scale_fst_pos hpos 1 _) (ratio_pos x)
    have hmantissa : (x.mantissa : ℚ) ≤ 10 ^ 16 := by
      have h := hx.mantissa
      have h' : 2 ^ 53 ≤ 10 ^ 16 := by norm_num
      exact_mod_cast (show x.mantissa ≤ 10 ^ 16 by omega)
    have hplace : (10 : ℚ) ^ x.place 17 * 10 ^ 16 = 10 ^ magnitude x.ratio.1 x.ratio.2 := by
      rw [← zpow_natCast, ← zpow_add₀ (by norm_num)]
      unfold place
      congr 1
      push_cast
      ring
    have hsize : x.size ≤ 10 ^ 16 * 2 ^ x.exponent :=
      mul_le_mul_of_nonneg_right hmantissa htwo.le
    have hchain : (10 : ℚ) ^ x.place 17 * 10 ^ 16 ≤ 2 ^ x.exponent * 10 ^ 16 := by
      rw [hplace, mul_comm (2 ^ x.exponent)]
      exact hfirst.trans hsize
    exact le_of_mul_le_mul_right hchain (by norm_num)
  have hnext : ((x.neighbour 17).1.digits : ℚ) ≤ x.below 17 + 1 := by
    exact_mod_cast (show (x.neighbour 17).1.digits ≤ x.below 17 + 1 by omega)
  rw [Decimal.size, hexp]
  calc ((x.neighbour 17).1.digits : ℚ) * 10 ^ x.place 17
      ≤ (x.below 17 + 1) * 10 ^ x.place 17 := mul_le_mul_of_nonneg_right hnext hten.le
    _ = x.below 17 * 10 ^ x.place 17 + 10 ^ x.place 17 := by ring
    _ ≤ x.size + 2 ^ x.exponent := add_le_add hle hfine
    _ = (x.mantissa + 1) * 2 ^ x.exponent := by
      rw [size]
      ring

/-! ### The shortest decimal -/

/-- The shortest decimal is a neighbour: the first that lies in the interval, or the one
of seventeen digits. -/
theorem shortest_cases (x : Binary64) :
    (∃ count, 0 < count ∧ (x.neighbour count).2 = true ∧ x.shortest = (x.neighbour count).1) ∨
      x.shortest = (x.neighbour 17).1 := by
  unfold shortest
  dsimp only
  split
  · rename_i hit hfind
    left
    obtain ⟨i, -, rfl⟩ := List.mem_map.mp (List.mem_of_find?_eq_some hfind)
    exact ⟨i + 1, Nat.succ_pos i, by simpa using List.find?_some hfind, rfl⟩
  · right
    rfl

/-- **The shortest decimal of a number other than zero is not zero**, -/
theorem digits_shortest_pos {x : Binary64} (hx : 0 < x.mantissa) : 0 < x.shortest.digits := by
  rcases shortest_cases x with ⟨count, hcount, -, heq⟩ | heq
  · rw [heq]
    exact digits_neighbour_pos hx hcount
  · rw [heq]
    exact digits_neighbour_pos hx (by norm_num)

/-- **and it is at most one last place above the number.** -/
theorem size_shortest_le {x : Binary64} (hx : x.Finite) (hpos : 0 < x.mantissa) :
    x.shortest.size ≤ (x.mantissa + 1) * 2 ^ x.exponent := by
  rcases shortest_cases x with ⟨count, -, hin, heq⟩ | heq
  · rw [heq]
    refine (size_neighbour_of_inside hin).trans (mul_le_mul_of_nonneg_right ?_ ?_)
    · linarith
    · exact zpow_nonneg (by norm_num) _
  · rw [heq]
    exact size_neighbour_le hx hpos

end IdentityStore.Binary64
