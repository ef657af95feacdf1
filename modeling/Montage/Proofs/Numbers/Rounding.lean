import Mathlib.Data.Int.Log
import Mathlib.Data.Rat.Floor
import Mathlib.Tactic.Linarith
import Mathlib.Tactic.Ring

/-!
# Rounding to the grid of doubles

A positive double is a whole number of steps, and how long a step is depends on
the size of the number: `gridExponent` gives it as a power of two.  `toGrid`
rounds a positive rational to a whole number of its steps, a tie going to an even
number of them.

The grid gets coarser as numbers grow, so that rounding keeps their order needs
an argument at the borders between two step lengths: every border is a power of
two, and lies on both grids (`toGrid_le_zpow`, `zpow_le_toGrid`).
-/

namespace Montage

/-- The whole number nearest to `x`, an even one where two are equally near. -/
def halfEven (x : ℚ) : ℕ :=
  if (⌊x + 1 / 2⌋₊ : ℚ) = x + 1 / 2 then ⌊x + 1 / 2⌋₊ - ⌊x + 1 / 2⌋₊ % 2 else ⌊x + 1 / 2⌋₊

/-- A half never goes further than up. -/
theorem halfEven_le_floor (x : ℚ) : halfEven x ≤ ⌊x + 1 / 2⌋₊ := by
  unfold halfEven
  by_cases h : (⌊x + 1 / 2⌋₊ : ℚ) = x + 1 / 2
  · rw [if_pos h]
    exact Nat.sub_le _ _
  · rw [if_neg h]

/-- Rounding to whole numbers keeps the order. -/
theorem halfEven_mono {x y : ℚ} (hx : 0 ≤ x) (h : x ≤ y) : halfEven x ≤ halfEven y := by
  have hfloor : ⌊x + 1 / 2⌋₊ ≤ ⌊y + 1 / 2⌋₊ := Nat.floor_mono (by linarith)
  by_cases htie : (⌊y + 1 / 2⌋₊ : ℚ) = y + 1 / 2
  · rcases hfloor.lt_or_eq with hlt | heq
    · have hle := halfEven_le_floor x
      have hy : halfEven y = ⌊y + 1 / 2⌋₊ - ⌊y + 1 / 2⌋₊ % 2 := if_pos htie
      rw [hy]
      omega
    · -- The smaller number lies on the same tie.
      have hle : (⌊x + 1 / 2⌋₊ : ℚ) ≤ x + 1 / 2 := Nat.floor_le (by linarith)
      rw [heq, htie] at hle
      obtain rfl : x = y := by linarith
      exact le_rfl
  · have hy : halfEven y = ⌊y + 1 / 2⌋₊ := if_neg htie
    rw [hy]
    exact (halfEven_le_floor x).trans hfloor

@[simp] theorem halfEven_natCast (n : ℕ) : halfEven n = n := by
  have hfloor : ⌊(n : ℚ) + 1 / 2⌋₊ = n := by
    rw [Nat.floor_eq_iff (by positivity)]
    constructor <;> linarith
  have htie : ¬ (⌊(n : ℚ) + 1 / 2⌋₊ : ℚ) = n + 1 / 2 := by
    rw [hfloor]
    intro h
    linarith
  unfold halfEven
  rw [if_neg htie, hfloor]

/-- The nearest whole number to a fraction, from quotient and remainder. -/
theorem halfEven_div (m : ℕ) {d : ℕ} (hd : 0 < d) :
    halfEven (m / d) =
      if 2 * (m % d) < d then m / d
      else if 2 * (m % d) = d then m / d + m / d % 2 else m / d + 1 := by
  have hd' : (0 : ℚ) < d := Nat.cast_pos.mpr hd
  have hm : (m : ℚ) = (m / d : ℕ) * d + (m % d : ℕ) := by
    exact_mod_cast (Nat.div_add_mod' m d).symm
  have hx : (m : ℚ) / d + 1 / 2 = (m / d : ℕ) + (2 * (m % d : ℕ) + d) / (2 * d) := by
    rw [hm]
    field_simp
    ring
  have hr : m % d < d := Nat.mod_lt m hd
  have hrq : ((m % d : ℕ) : ℚ) < d := Nat.cast_lt.mpr hr
  have hr0 : (0 : ℚ) ≤ (m % d : ℕ) := Nat.cast_nonneg _
  -- the remainder decides whether adding a half passes the next whole number
  by_cases hlow : 2 * (m % d) < d
  · have hlowq : 2 * ((m % d : ℕ) : ℚ) < d := by exact_mod_cast hlow
    have hbelow : (2 * ((m % d : ℕ) : ℚ) + d) / (2 * d) < 1 := by
      rw [div_lt_one (by linarith)]
      linarith
    have habove : 0 < (2 * ((m % d : ℕ) : ℚ) + d) / (2 * d) := by positivity
    have hfloor : ⌊(m : ℚ) / d + 1 / 2⌋₊ = m / d := by
      rw [hx, Nat.floor_eq_iff (by positivity)]
      constructor <;> linarith
    have htie : ¬ (⌊(m : ℚ) / d + 1 / 2⌋₊ : ℚ) = m / d + 1 / 2 := by
      rw [hfloor, hx]
      intro h
      linarith
    unfold halfEven
    rw [if_neg htie, if_pos hlow, hfloor]
  · have hlowq : (d : ℚ) ≤ 2 * ((m % d : ℕ) : ℚ) := by exact_mod_cast not_lt.mp hlow
    have hbelow : (2 * ((m % d : ℕ) : ℚ) + d) / (2 * d) < 2 := by
      rw [div_lt_iff₀ (by linarith)]
      linarith
    have habove : 1 ≤ (2 * ((m % d : ℕ) : ℚ) + d) / (2 * d) := by
      rw [le_div_iff₀ (by linarith)]
      linarith
    have hfloor : ⌊(m : ℚ) / d + 1 / 2⌋₊ = m / d + 1 := by
      rw [hx, Nat.floor_eq_iff (by positivity)]
      push_cast
      constructor <;> linarith
    have htie : (⌊(m : ℚ) / d + 1 / 2⌋₊ : ℚ) = m / d + 1 / 2 ↔ 2 * (m % d) = d := by
      rw [hfloor, hx]
      push_cast
      rw [add_right_inj, eq_div_iff (by linarith), ← Nat.cast_inj (R := ℚ)]
      push_cast
      constructor <;> intro h <;> linarith
    unfold halfEven
    rw [if_neg hlow, hfloor]
    by_cases heq : 2 * (m % d) = d
    · rw [hfloor] at htie
      rw [if_pos (htie.mpr heq), if_pos heq]
      omega
    · rw [hfloor] at htie
      rw [if_neg (fun h => heq (htie.mp h)), if_neg heq]

/-- The exponent of the step of the grid at the size of `x`. -/
def gridExponent (x : ℚ) : ℤ := max (Int.log 2 x - 52) (-1074)

/-- How many steps of the grid are nearest to a positive `x`. -/
def gridSteps (x : ℚ) : ℕ := halfEven (x / 2 ^ gridExponent x)

/-- The number of the grid that is nearest to a positive `x`. -/
def toGrid (x : ℚ) : ℚ := gridSteps x * 2 ^ gridExponent x

/-- The grid becomes coarser with the size of the number. -/
theorem gridExponent_mono {x y : ℚ} (hx : 0 < x) (h : x ≤ y) :
    gridExponent x ≤ gridExponent y := by
  have hlog := Int.log_mono_right (b := 2) hx h
  unfold gridExponent
  omega

/-- The grid is never finer than the smallest double. -/
theorem gridExponent_ge (x : ℚ) : -1074 ≤ gridExponent x := le_max_right _ _

theorem two_zpow_pos (e : ℤ) : (0 : ℚ) < 2 ^ e := zpow_pos (by norm_num) e

theorem mul_zpow_pos {m : ℕ} (hm : 0 < m) (e : ℤ) : (0 : ℚ) < m * 2 ^ e :=
  mul_pos (Nat.cast_pos.mpr hm) (two_zpow_pos e)

theorem mul_zpow_nonneg (m : ℕ) (e : ℤ) : (0 : ℚ) ≤ m * 2 ^ e :=
  mul_nonneg (Nat.cast_nonneg m) (two_zpow_pos e).le

theorem toGrid_nonneg (x : ℚ) : 0 ≤ toGrid x := mul_zpow_nonneg _ _

/-- A whole number of steps stays where it is. -/
theorem halfEven_zpow_div {k e : ℤ} (h : e ≤ k) (m : ℕ) :
    (halfEven (m * 2 ^ k / 2 ^ e) : ℚ) * 2 ^ e = m * 2 ^ k := by
  obtain ⟨n, rfl⟩ : ∃ n : ℕ, k = e + n := ⟨(k - e).toNat, by omega⟩
  have hsteps : (m : ℚ) * 2 ^ (e + n : ℤ) / 2 ^ e = ((m * 2 ^ n : ℕ) : ℚ) := by
    rw [zpow_add₀ two_ne_zero, zpow_natCast]
    push_cast
    field_simp
  rw [hsteps, halfEven_natCast, ← hsteps, div_mul_cancel₀ _ (two_zpow_pos e).ne']

/-- A number with at most 53 binary digits and no step below the smallest one
stays where it is. -/
theorem toGrid_eq {m : ℕ} {e : ℤ} (hm : 0 < m) (hm' : m < 2 ^ 53) (he : -1074 ≤ e) :
    toGrid (m * 2 ^ e) = m * 2 ^ e := by
  have hpos : (0 : ℚ) < m * 2 ^ e := mul_zpow_pos hm e
  have hlog : Int.log 2 ((m : ℚ) * 2 ^ e) < 53 + e := by
    rw [← Int.lt_zpow_iff_log_lt one_lt_two hpos]
    push_cast
    rw [zpow_add₀ two_ne_zero]
    refine mul_lt_mul_of_pos_right ?_ (two_zpow_pos e)
    exact_mod_cast hm'
  have hstep : gridExponent (m * 2 ^ e) ≤ e := by
    unfold gridExponent
    omega
  exact halfEven_zpow_div hstep m

/-- A border between two step lengths is not crossed from below. -/
theorem toGrid_le_zpow {x : ℚ} {k : ℤ} (hx : 0 < x) (h : x ≤ 2 ^ k) (hk : gridExponent x ≤ k) :
    toGrid x ≤ 2 ^ k := by
  have hscaled : x / 2 ^ gridExponent x ≤ (1 : ℕ) * 2 ^ k / 2 ^ gridExponent x := by
    rw [Nat.cast_one, one_mul]
    exact div_le_div_of_nonneg_right h (two_zpow_pos _).le
  have hsteps := halfEven_mono (div_nonneg hx.le (two_zpow_pos _).le) hscaled
  calc toGrid x
      ≤ (halfEven ((1 : ℕ) * 2 ^ k / 2 ^ gridExponent x) : ℚ) * 2 ^ gridExponent x :=
        mul_le_mul_of_nonneg_right (Nat.cast_le.mpr hsteps) (two_zpow_pos _).le
    _ = 2 ^ k := by rw [halfEven_zpow_div hk, Nat.cast_one, one_mul]

/-- A border between two step lengths is not crossed from above. -/
theorem zpow_le_toGrid {x : ℚ} {k : ℤ} (h : 2 ^ k ≤ x) (hk : gridExponent x ≤ k) :
    2 ^ k ≤ toGrid x := by
  have hscaled : (1 : ℕ) * 2 ^ k / 2 ^ gridExponent x ≤ x / 2 ^ gridExponent x := by
    rw [Nat.cast_one, one_mul]
    exact div_le_div_of_nonneg_right h (two_zpow_pos _).le
  have hnonneg : (0 : ℚ) ≤ (1 : ℕ) * 2 ^ k / 2 ^ gridExponent x := by
    rw [Nat.cast_one, one_mul]
    exact div_nonneg (two_zpow_pos k).le (two_zpow_pos _).le
  have hsteps := halfEven_mono hnonneg hscaled
  calc (2 : ℚ) ^ k
      = (halfEven ((1 : ℕ) * 2 ^ k / 2 ^ gridExponent x) : ℚ) * 2 ^ gridExponent x := by
        rw [halfEven_zpow_div hk, Nat.cast_one, one_mul]
    _ ≤ toGrid x := mul_le_mul_of_nonneg_right (Nat.cast_le.mpr hsteps) (two_zpow_pos _).le

/-- A number of the grid takes 53 binary digits at most, or is the border above. -/
theorem gridSteps_le {x : ℚ} (hx : 0 < x) : gridSteps x ≤ 2 ^ 53 := by
  have hstep : Int.log 2 x < 53 + gridExponent x := by
    unfold gridExponent
    omega
  have hbelow : x < 2 ^ (53 + gridExponent x) := by
    exact_mod_cast (Int.lt_zpow_iff_log_lt (b := 2) one_lt_two hx).mpr hstep
  have hscaled : x / 2 ^ gridExponent x ≤ ((2 ^ 53 : ℕ) : ℚ) := by
    rw [div_le_iff₀ (two_zpow_pos _)]
    rw [zpow_add₀ two_ne_zero] at hbelow
    exact_mod_cast hbelow.le
  have hsteps := halfEven_mono (div_nonneg hx.le (two_zpow_pos _).le) hscaled
  rwa [halfEven_natCast] at hsteps

/-- Above the smallest steps, a number of the grid takes no fewer digits. -/
theorem le_gridSteps {x : ℚ} (hx : 0 < x) (hstep : gridExponent x ≠ -1074) :
    2 ^ 52 ≤ gridSteps x := by
  have hlog : 52 + gridExponent x ≤ Int.log 2 x := by
    unfold gridExponent at hstep ⊢
    omega
  have habove : (2 : ℚ) ^ (52 + gridExponent x) ≤ x := by
    exact_mod_cast (Int.zpow_le_iff_le_log (b := 2) one_lt_two hx).mpr hlog
  have hscaled : ((2 ^ 52 : ℕ) : ℚ) ≤ x / 2 ^ gridExponent x := by
    rw [le_div_iff₀ (two_zpow_pos _)]
    rw [zpow_add₀ two_ne_zero] at habove
    exact_mod_cast habove
  have hsteps := halfEven_mono (Nat.cast_nonneg _) hscaled
  rwa [halfEven_natCast] at hsteps

/-- Rounding to the grid keeps the order of positive numbers. -/
theorem toGrid_mono {x y : ℚ} (hx : 0 < x) (h : x ≤ y) : toGrid x ≤ toGrid y := by
  have hy : 0 < y := hx.trans_le h
  rcases (gridExponent_mono hx h).lt_or_eq with hlt | heq
  · -- The power of two at the size of `y` stands between the two.
    have hstep : gridExponent y = Int.log 2 y - 52 := by
      unfold gridExponent at hlt ⊢
      omega
    have hbelow : x ≤ 2 ^ Int.log 2 y := by
      have hlog : Int.log 2 x < Int.log 2 y := by
        unfold gridExponent at hlt
        omega
      have hborder := (Int.lt_zpow_iff_log_lt (b := 2) one_lt_two hx).mpr hlog
      exact_mod_cast hborder.le
    have habove : (2 : ℚ) ^ Int.log 2 y ≤ y := by
      exact_mod_cast Int.zpow_log_le_self (b := 2) one_lt_two hy
    calc toGrid x ≤ 2 ^ Int.log 2 y := toGrid_le_zpow hx hbelow (by omega)
      _ ≤ toGrid y := zpow_le_toGrid habove (by omega)
  · have hscaled : x / 2 ^ gridExponent x ≤ y / 2 ^ gridExponent x :=
      div_le_div_of_nonneg_right h (two_zpow_pos _).le
    have hsteps := halfEven_mono (div_nonneg hx.le (two_zpow_pos _).le) hscaled
    unfold toGrid gridSteps
    rw [← heq]
    exact mul_le_mul_of_nonneg_right (Nat.cast_le.mpr hsteps) (two_zpow_pos _).le

end Montage
