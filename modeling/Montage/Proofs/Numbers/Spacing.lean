import Montage.Proofs.Numbers.Signed

/-!
# How far rounding goes

Rounding takes the nearest number of the grid: no other is nearer to the number that is
rounded (`abs_toGrid_sub_le_abs`), and half a step is the farthest that it goes
(`abs_toGrid_sub_le`).  The numbers of the grid at some size are whole numbers of steps of
every smaller size (`exists_steps`), so two of them are a step apart at least.

For differences of doubles this gives a bound on either side.  What is taken away counts
twice at most (`sub_two_mul_le_nearby`); and where a time is taken from a double and the
result is rounded, adding the time again leads no farther than to the next double
(`nearby_sub_add_le`).
-/

namespace Montage

/-- Rounding to whole numbers moves a number by half a one at most. -/
theorem abs_halfEven_sub_le {x : ℚ} (hx : 0 ≤ x) : |(halfEven x : ℚ) - x| ≤ 1 / 2 := by
  obtain ⟨f, hf⟩ : ∃ f, ⌊x + 1 / 2⌋₊ = f := ⟨_, rfl⟩
  have hlow : (f : ℚ) ≤ x + 1 / 2 := by
    rw [← hf]
    exact Nat.floor_le (by linarith)
  have hhigh : x + 1 / 2 < f + 1 := by
    rw [← hf]
    exact Nat.lt_floor_add_one _
  unfold halfEven
  rw [hf, abs_le]
  by_cases htie : (f : ℚ) = x + 1 / 2
  · rw [if_pos htie]
    rcases Nat.mod_two_eq_zero_or_one f with heven | hodd
    · rw [heven, Nat.sub_zero]
      constructor <;> linarith
    · have hone : 1 ≤ f := by omega
      rw [hodd, Nat.cast_sub hone, Nat.cast_one]
      constructor <;> linarith
  · rw [if_neg htie]
    constructor <;> linarith

/-- No whole number is nearer. -/
theorem abs_halfEven_sub_le_abs {x : ℚ} (hx : 0 ≤ x) (n : ℕ) :
    |(halfEven x : ℚ) - x| ≤ |(n : ℚ) - x| := by
  have hhalf := abs_halfEven_sub_le hx
  by_cases hn : n = halfEven x
  · rw [hn]
  · have hint : (1 : ℤ) ≤ |(n : ℤ) - halfEven x| := Int.one_le_abs (by omega)
    have happart : (1 : ℚ) ≤ |(n : ℚ) - halfEven x| := by exact_mod_cast hint
    have htriangle := abs_sub_le (n : ℚ) x (halfEven x)
    rw [abs_sub_comm x] at htriangle
    linarith

section Grid

variable {x y : ℚ}

/-- Numbers of the grid are whole numbers of all smaller steps. -/
theorem exists_steps (hx : 0 < x) (hxy : x ≤ y) (hy : toGrid y = y) :
    ∃ n : ℕ, y = n * 2 ^ gridExponent x := by
  obtain ⟨k, hk⟩ : ∃ k : ℕ, gridExponent y = k + gridExponent x :=
    ⟨(gridExponent y - gridExponent x).toNat, by have := gridExponent_mono hx hxy; omega⟩
  refine ⟨gridSteps y * 2 ^ k, ?_⟩
  rw [toGrid, hk, zpow_add₀ two_ne_zero, zpow_natCast] at hy
  push_cast
  linarith

/-- Rounding goes no farther than half a step. -/
theorem abs_toGrid_sub_le (hx : 0 < x) : |toGrid x - x| ≤ 2 ^ gridExponent x / 2 := by
  have hstep := two_zpow_pos (gridExponent x)
  have hscaled := abs_halfEven_sub_le (div_nonneg hx.le hstep.le)
  have hdistance : toGrid x - x
      = (gridSteps x - x / 2 ^ gridExponent x) * 2 ^ gridExponent x := by
    rw [toGrid, sub_mul, div_mul_cancel₀ _ hstep.ne']
  rw [hdistance, abs_mul, abs_of_pos hstep]
  have := mul_le_mul_of_nonneg_right hscaled hstep.le
  unfold gridSteps
  linarith

/-- Rounding goes to the nearest number of the grid. -/
theorem abs_toGrid_sub_le_abs (hx : 0 < x) (n : ℕ) :
    |toGrid x - x| ≤ |n * 2 ^ gridExponent x - x| := by
  have hstep := two_zpow_pos (gridExponent x)
  have hscaled := abs_halfEven_sub_le_abs (div_nonneg hx.le hstep.le) n
  have hdistance : ∀ k : ℕ, |(k : ℚ) * 2 ^ gridExponent x - x|
      = |k - x / 2 ^ gridExponent x| * 2 ^ gridExponent x := by
    intro k
    rw [← abs_of_pos hstep, ← abs_mul, abs_of_pos hstep, sub_mul, div_mul_cancel₀ _ hstep.ne']
  rw [toGrid, hdistance, hdistance]
  exact mul_le_mul_of_nonneg_right hscaled hstep.le

end Grid

namespace Double

variable {v w t z : ℚ}

/-- A number that is not rounded lies on the grid. -/
theorem toGrid_of_nearby (hv : 0 < v) (h : nearby v = .finite v) : toGrid v = v := by
  rw [nearby_of_nonneg hv.le, magnitude] at h
  by_cases hfits : toGrid v < 2 ^ 1024
  · rw [if_pos hfits] at h
    exact Exact.finite.inj h
  · rw [if_neg hfits] at h
    cases h

/-- Taking a time from a double takes no more than twice the time. -/
theorem sub_two_mul_le_nearby (hv : nearby v = .finite v) (ht : 0 ≤ t) (htv : t ≤ v) :
    .finite (v - 2 * t) ≤ nearby (v - t) := by
  rcases htv.eq_or_lt with rfl | hlt
  · rw [sub_self, nearby_zero, Exact.finite_le_finite]
    linarith
  · have hpos : 0 < v - t := by linarith
    have hgrid := toGrid_of_nearby (ht.trans_lt hlt) hv
    obtain ⟨n, hn⟩ := exists_steps hpos (by linarith) hgrid
    have hnear := abs_toGrid_sub_le_abs hpos n
    rw [← hn, sub_sub_cancel, abs_of_nonneg ht] at hnear
    have hlow := (abs_le.mp hnear).1
    rw [nearby_of_nonneg hpos.le, magnitude]
    by_cases hfits : toGrid (v - t) < 2 ^ 1024
    · rw [if_pos hfits, Exact.finite_le_finite]
      linarith
    · rw [if_neg hfits]
      exact Exact.finite_le_infinite.mpr rfl

/-- Adding again what was taken from a double leads no farther than to the next one. -/
theorem nearby_sub_add_le (hv : nearby v = .finite v) (hw : nearby w = .finite w) (hvw : v < w)
    (ht : 0 ≤ t) (htv : t ≤ v) (hz : nearby (v - t) = .finite z) : z + t ≤ w := by
  rcases htv.eq_or_lt with rfl | hlt
  · rw [sub_self, nearby_zero] at hz
    obtain rfl := Exact.finite.inj hz
    linarith
  · have hpos : 0 < v - t := by linarith
    have hgridv := toGrid_of_nearby (ht.trans_lt hlt) hv
    have hgridw := toGrid_of_nearby ((ht.trans_lt hlt).trans hvw) hw
    obtain ⟨m, hm⟩ := exists_steps hpos (by linarith) hgridv
    obtain ⟨n, hn⟩ := exists_steps hpos (by linarith) hgridw
    have hstep := two_zpow_pos (gridExponent (v - t))
    have hapart : v + 2 ^ gridExponent (v - t) ≤ w := by
      have hmn : m < n := by
        have hscaled : (m : ℚ) * 2 ^ gridExponent (v - t) < n * 2 ^ gridExponent (v - t) := by
          rw [← hm, ← hn]
          exact hvw
        exact_mod_cast lt_of_mul_lt_mul_right hscaled hstep.le
      have hsucc : ((m : ℚ) + 1) * 2 ^ gridExponent (v - t) ≤ n * 2 ^ gridExponent (v - t) :=
        mul_le_mul_of_nonneg_right (by exact_mod_cast hmn) hstep.le
      rw [← hn] at hsucc
      linarith
    have hrounded : z = toGrid (v - t) := by
      rw [nearby_of_nonneg hpos.le, magnitude] at hz
      by_cases hfits : toGrid (v - t) < 2 ^ 1024
      · rw [if_pos hfits] at hz
        exact (Exact.finite.inj hz).symm
      · rw [if_neg hfits] at hz
        cases hz
    have hhigh := (abs_le.mp (abs_toGrid_sub_le hpos)).2
    linarith

end Double

end Montage
