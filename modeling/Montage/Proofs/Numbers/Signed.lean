import Montage.Proofs.Numbers.Double

/-!
# Sums and differences of any two doubles

`closest` brings an exact number to the grid of doubles, whatever its sign.  The sum
and the difference of two doubles are the exact ones brought to the grid, infinities
and NaN included (`exact_sum`, `exact_difference`).

Bringing numbers to the grid keeps their order (`closest_mono`) and leaves every
double where it is (`closest_exact`).  So a result that lies between two finite
doubles is finite.
-/

namespace Montage

open Float.Model Float.Model.UnpackedFloat

namespace Exact

@[simp] theorem neg_infinite (s : Bool) : -infinite s = infinite (!s) := rfl

@[simp] theorem neg_nan : -nan = nan := rfl

theorem sub_eq_add_neg (x y : Exact) : x - y = x + -y := rfl

/-- The opposite of the opposite is the number itself. -/
theorem neg_neg (x : Exact) : - -x = x := by
  cases x with
  | finite q => simp
  | infinite s => simp
  | nan => rfl

/-- Opposite numbers are ordered the other way. -/
theorem neg_le_neg {x y : Exact} (h : x ≤ y) : -y ≤ -x := by
  cases x with
  | finite p =>
      cases y with
      | finite q => simpa using h
      | infinite t => simpa using h
      | nan => exact absurd h (not_le_nan _)
  | infinite s =>
      cases y with
      | finite q => simpa using h
      | infinite t => simpa [or_comm] using h
      | nan => exact absurd h (not_le_nan _)
  | nan => exact absurd h (not_nan_le _)

/-- The order of numbers is transitive. -/
theorem le_trans {x y z : Exact} (hxy : x ≤ y) (hyz : y ≤ z) : x ≤ z := by
  cases y with
  | finite q =>
      cases x with
      | finite p =>
          cases z with
          | finite r =>
              exact finite_le_finite.mpr ((finite_le_finite.mp hxy).trans (finite_le_finite.mp hyz))
          | infinite u => exact finite_le_infinite.mpr (finite_le_infinite.mp hyz)
          | nan => exact absurd hyz (not_le_nan _)
      | infinite s =>
          obtain rfl : s = true := infinite_le_finite.mp hxy
          cases z with
          | finite r => rfl
          | infinite u => exact infinite_le_infinite.mpr (Or.inl rfl)
          | nan => exact absurd hyz (not_le_nan _)
      | nan => exact absurd hxy (not_nan_le _)
  | infinite t =>
      cases t with
      | true =>
          cases x with
          | finite p => exact absurd (finite_le_infinite.mp hxy) (by decide)
          | infinite s =>
              obtain rfl : s = true := by simpa using hxy
              exact hyz
          | nan => exact absurd hxy (not_nan_le _)
      | false =>
          cases z with
          | finite r => exact absurd (infinite_le_finite.mp hyz) (by decide)
          | infinite u =>
              obtain rfl : u = false := by simpa using hyz
              exact hxy
          | nan => exact absurd hyz (not_le_nan _)
  | nan => exact absurd hxy (not_le_nan _)

/-- A number between two finite ones is finite. -/
theorem exists_of_between {p q : ℚ} {x : Exact} (hlow : finite p ≤ x) (hhigh : x ≤ finite q) :
    ∃ r : ℚ, x = finite r ∧ p ≤ r ∧ r ≤ q := by
  cases x with
  | finite r => exact ⟨r, rfl, finite_le_finite.mp hlow, finite_le_finite.mp hhigh⟩
  | infinite s =>
      rw [finite_le_infinite] at hlow
      rw [infinite_le_finite, hlow] at hhigh
      cases hhigh
  | nan => exact absurd hlow (not_le_nan _)

/-- A number that is no NaN is not above itself. -/
theorem le_refl {x : Exact} (h : x ≠ nan) : x ≤ x := by
  cases x with
  | finite q => exact finite_le_finite.mpr le_rfl
  | infinite s => cases s <;> rfl
  | nan => exact absurd rfl h

theorem le_of_eq {x y : Exact} (h : x = y) (hx : x ≠ nan) : x ≤ y := by
  rw [← h]
  exact le_refl hx

/-- Zero changes nothing in a sum, not even in one that is no number. -/
theorem add_zero (x : Exact) : x + finite 0 = x := by
  cases x with
  | finite q => simp
  | infinite s => rfl
  | nan => rfl

/-- Numbers that can be compared are no NaN. -/
theorem ne_nan_of_le {x y : Exact} (h : x ≤ y) : x ≠ nan ∧ y ≠ nan := by
  constructor
  · rintro rfl
    exact not_nan_le _ h
  · rintro rfl
    exact not_le_nan _ h

/-- A finite number can be added on the right of an inequality. -/
theorem add_le_add_right {x y : Exact} (h : x ≤ y) (q : ℚ) : x + finite q ≤ y + finite q := by
  cases x with
  | finite p =>
      cases y with
      | finite r => simpa using h
      | infinite t => simpa using h
      | nan => exact absurd h (not_le_nan _)
  | infinite s =>
      cases y with
      | finite r => simpa using h
      | infinite t => simpa using h
      | nan => exact absurd h (not_le_nan _)
  | nan => exact absurd h (not_nan_le _)

/-- So it can on the left, where the summand may be endless. -/
theorem add_le_add_left {x : Exact} (hx : x ≠ nan) {p q : ℚ} (h : p ≤ q) :
    x + finite p ≤ x + finite q := by
  cases x with
  | finite r => simpa using h
  | infinite s => exact le_refl hx
  | nan => exact absurd rfl hx

/-- Numbers other than NaN are ordered. -/
theorem le_of_not_lt {x y : Exact} (hx : x ≠ nan) (hy : y ≠ nan) (h : ¬ x < y) : y ≤ x := by
  cases x with
  | finite p =>
      cases y with
      | finite q => simpa using h
      | infinite t =>
          cases t with
          | true => rfl
          | false => exact absurd (finite_lt_infinite.mpr rfl) h
      | nan => exact absurd rfl hy
  | infinite s =>
      cases y with
      | finite q =>
          cases s with
          | true => exact absurd rfl h
          | false => exact finite_le_infinite.mpr rfl
      | infinite t =>
          cases s with
          | true =>
              cases t with
              | true => exact le_refl hx
              | false => exact absurd (by decide) h
          | false => exact infinite_le_infinite.mpr (Or.inr rfl)
      | nan => exact absurd rfl hy
  | nan => exact absurd rfl hx

/-- What is not above a number is not greater. -/
theorem not_lt_of_le {x y : Exact} (h : x ≤ y) : ¬ y < x := by
  cases x with
  | finite p =>
      cases y with
      | finite q => simpa using h
      | infinite t =>
          obtain rfl := finite_le_infinite.mp h
          exact fun hlt => Bool.false_ne_true (infinite_lt_finite.mp hlt)
      | nan => exact absurd h (not_le_nan _)
  | infinite s =>
      cases y with
      | finite q =>
          obtain rfl := infinite_le_finite.mp h
          exact fun hlt => Bool.false_ne_true (finite_lt_infinite.mp hlt).symm
      | infinite t => revert h; cases s <;> cases t <;> decide
      | nan => exact absurd h (not_le_nan _)
  | nan => exact absurd h (not_nan_le _)

/-- Numbers of which one is smaller are no NaN. -/
theorem ne_nan_of_lt {x y : Exact} (h : x < y) : x ≠ nan ∧ y ≠ nan := by
  constructor
  · rintro rfl
    exact not_nan_lt _ h
  · rintro rfl
    exact not_lt_nan _ h

/-- A strict inequality stays strict behind a weak one. -/
theorem lt_of_lt_of_le {x y z : Exact} (hxy : x < y) (hyz : y ≤ z) : x < z := by
  by_contra hnot
  have hback := le_of_not_lt (ne_nan_of_lt hxy).1 (ne_nan_of_le hyz).2 hnot
  exact not_lt_of_le (le_trans hyz hback) hxy

/-- So it does in front of one. -/
theorem lt_of_le_of_lt {x y z : Exact} (hxy : x ≤ y) (hyz : y < z) : x < z := by
  by_contra hnot
  have hback := le_of_not_lt (ne_nan_of_le hxy).1 (ne_nan_of_lt hyz).2 hnot
  exact not_lt_of_le (le_trans hback hxy) hyz

/-- A sum is finite only where both numbers are. -/
theorem finite_of_add {x y : Exact} {r : ℚ} (h : x + y = finite r) :
    ∃ p q : ℚ, x = finite p ∧ y = finite q := by
  cases x with
  | finite p =>
      cases y with
      | finite q => exact ⟨p, q, rfl, rfl⟩
      | infinite t => cases h
      | nan => cases h
  | infinite s =>
      cases y with
      | finite q => cases h
      | infinite t => cases s <;> cases t <;> cases h
      | nan => cases h
  | nan => cases y <;> cases h

end Exact

namespace Double

/-! ## Bringing a number to the grid -/

/-- The number that a double gives to a rational. -/
def nearby (q : ℚ) : Exact := if q < 0 then -magnitude (-q) else magnitude q

/-- The number that a double gives to an exact number. -/
def closest : Exact → Exact
  | .finite q => nearby q
  | x => x

theorem nearby_of_nonneg {q : ℚ} (h : 0 ≤ q) : nearby q = magnitude q := if_neg h.not_gt

@[simp] theorem magnitude_zero : magnitude 0 = .finite 0 := by
  have hgrid : toGrid 0 = 0 := by
    have hsteps : gridSteps 0 = 0 := by
      rw [gridSteps, zero_div]
      exact_mod_cast halfEven_natCast 0
    rw [toGrid, hsteps, Nat.cast_zero, zero_mul]
  rw [magnitude, hgrid, if_pos (by positivity)]

@[simp] theorem nearby_zero : nearby 0 = .finite 0 := by
  rw [nearby_of_nonneg le_rfl, magnitude_zero]

/-- The opposite of a rational is rounded to the opposite. -/
theorem nearby_neg (q : ℚ) : nearby (-q) = -nearby q := by
  rcases lt_trichotomy q 0 with hneg | rfl | hpos
  · have hq : nearby q = -magnitude (-q) := if_pos hneg
    rw [nearby_of_nonneg (neg_pos.mpr hneg).le, hq, Exact.neg_neg]
  · rw [neg_zero, nearby_zero, Exact.neg_finite, neg_zero]
  · have hq : nearby (-q) = -magnitude (- -q) := if_pos (neg_neg_of_pos hpos)
    rw [hq, neg_neg, nearby_of_nonneg hpos.le]

/-- Magnitudes are not negative. -/
theorem zero_le_magnitude (q : ℚ) : .finite 0 ≤ magnitude q := by
  unfold magnitude
  by_cases hfits : toGrid q < 2 ^ 1024
  · rw [if_pos hfits]
    exact Exact.finite_le_finite.mpr (toGrid_nonneg q)
  · rw [if_neg hfits]
    exact Exact.finite_le_infinite.mpr rfl

/-- No rational is rounded to more than infinity. -/
theorem nearby_le_infinite (q : ℚ) : nearby q ≤ .infinite false := by
  by_cases hneg : q < 0
  · have hq : nearby q = -magnitude (-q) := if_pos hneg
    have hmirror := Exact.neg_le_neg (zero_le_magnitude (-q))
    rw [hq]
    exact Exact.le_trans hmirror (by simp)
  · rw [nearby, if_neg hneg]
    exact magnitude_le_infinite q

/-- A rational that is not positive is not rounded to a positive number. -/
theorem nearby_le_zero {q : ℚ} (h : q ≤ 0) : nearby q ≤ .finite 0 := by
  have hneg := Exact.neg_le_neg (zero_le_magnitude (-q))
  rw [← nearby_of_nonneg (neg_nonneg.mpr h), nearby_neg, Exact.neg_neg] at hneg
  simpa using hneg

/-- Rounding keeps the order of all rationals. -/
theorem nearby_mono {p q : ℚ} (h : p ≤ q) : nearby p ≤ nearby q := by
  rcases lt_or_ge 0 p with hp | hp
  · rw [nearby_of_nonneg hp.le, nearby_of_nonneg (hp.le.trans h)]
    exact magnitude_mono hp h
  · rcases lt_or_ge q 0 with hq | hq
    · -- Both are negative, and their magnitudes are ordered the other way.
      have hmirror := magnitude_mono (neg_pos.mpr hq) (neg_le_neg h)
      rw [← nearby_of_nonneg (neg_pos.mpr hq).le, ← nearby_of_nonneg (neg_nonneg.mpr hp),
        nearby_neg, nearby_neg] at hmirror
      have hsigned := Exact.neg_le_neg hmirror
      rwa [Exact.neg_neg, Exact.neg_neg] at hsigned
    · rw [nearby_of_nonneg hq]
      exact Exact.le_trans (nearby_le_zero hp) (zero_le_magnitude q)

/-- Rounding keeps the order of all numbers. -/
theorem closest_mono {x y : Exact} (h : x ≤ y) : closest x ≤ closest y := by
  have hlow : ∀ q : ℚ, .infinite true ≤ nearby q := by
    intro q
    have hmirror := Exact.neg_le_neg (nearby_le_infinite (-q))
    rwa [nearby_neg, Exact.neg_neg] at hmirror
  cases x with
  | finite p =>
      cases y with
      | finite q => exact nearby_mono (Exact.finite_le_finite.mp h)
      | infinite t =>
          obtain rfl : t = false := by simpa using h
          exact nearby_le_infinite p
      | nan => exact absurd h (Exact.not_le_nan _)
  | infinite s =>
      cases y with
      | finite q =>
          obtain rfl : s = true := by simpa using h
          exact hlow q
      | infinite t => exact h
      | nan => exact h
  | nan => exact absurd h (Exact.not_nan_le _)

/-- Only a finite number is brought to a finite one. -/
theorem finite_of_closest {x : Exact} {r : ℚ} (h : closest x = .finite r) :
    ∃ q : ℚ, x = .finite q := by
  cases x with
  | finite q => exact ⟨q, rfl⟩
  | infinite s => cases h
  | nan => cases h

/-! ## Doubles in signed form -/

/-- The number that sign, mantissa and exponent stand for. -/
theorem value_finite (s : Sign) (m : ℕ) (e : ℤ) (hm : 0 < m) :
    value (.finite s m e hm) = .finite ((s.apply (m : ℤ) : ℤ) * 2 ^ e) := by
  cases s with
  | positive => rfl
  | negative =>
      change Exact.finite (-(m * 2 ^ e)) = .finite (((-(m : ℤ) : ℤ) : ℚ) * 2 ^ e)
      push_cast
      rw [neg_mul]

/-- A double of either sign is not rounded any further. -/
theorem nearby_value {s : Sign} {m : ℕ} {e : ℤ} (hm : Canonical m e) (he : e ≤ 971) :
    nearby ((s.apply (m : ℤ) : ℤ) * 2 ^ e) = .finite ((s.apply (m : ℤ) : ℤ) * 2 ^ e) := by
  have hpos : (0 : ℚ) < m * 2 ^ e := mul_zpow_pos hm.pos e
  have hmagnitude : nearby ((m : ℚ) * 2 ^ e) = .finite (m * 2 ^ e) := by
    rw [nearby_of_nonneg hpos.le, magnitude, toGrid_eq hm.pos hm.lt hm.ge,
      if_pos (hm.lt_two_pow he)]
  cases s with
  | positive => exact hmagnitude
  | negative =>
      have hneg : (((-(m : ℤ) : ℤ) : ℚ)) * 2 ^ e = -(m * 2 ^ e) := by
        push_cast
        rw [neg_mul]
      change nearby (((-(m : ℤ) : ℤ) : ℚ) * 2 ^ e) = .finite (((-(m : ℤ) : ℤ) : ℚ) * 2 ^ e)
      rw [hneg, nearby_neg, hmagnitude, Exact.neg_finite]

/-- The number that a double stands for is not rounded any further. -/
theorem closest_value {u : UnpackedFloat} (hu : Kept u) : closest (value u) = value u := by
  cases u with
  | infinity s => cases s <;> rfl
  | notANumber => rfl
  | zero s => exact nearby_zero
  | finite s m e hm =>
      rw [value_finite]
      exact nearby_value hu.1 hu.2

/-- Bringing a double to the grid leaves it where it is. -/
theorem closest_exact (x : Float) : closest (exact x) = exact x := closest_value (kept_unpack x)

/-- What is kept survives packing. -/
theorem unpack_pack {u : UnpackedFloat} (hu : Kept u) :
    UnpackedFloat.unpack Format.binary64 (UnpackedFloat.pack Format.binary64 u) = u := by
  cases u with
  | infinity s => exact unpack_pack_infinity s
  | notANumber => exact unpack_pack_notANumber
  | zero s => exact unpack_pack_zero s
  | finite s m e hm => exact unpack_pack_canonical s hu.1 hu.2

/-! ## Sums and differences -/

/-- A whole number of steps of any sign, brought to the grid. -/
theorem value_pack_normalize (n : ℤ) (e : ℤ) :
    value (UnpackedFloat.unpack Format.binary64 (UnpackedFloat.pack Format.binary64
      (UnpackedFloat.normalize Format.binary64 n e .positive))) = nearby (n * 2 ^ e) := by
  rw [UnpackedFloat.normalize]
  rcases lt_trichotomy n 0 with hneg | rfl | hpos
  · obtain ⟨m, rfl⟩ : ∃ m : ℕ, n = -m := ⟨(-n).toNat, by omega⟩
    have hm : 0 < m := by omega
    rw [compare_lt_iff_lt.mpr hneg]
    have hmantissa : (- -(m : ℤ)).toNat = m := by omega
    simp only [hmantissa]
    have hvalue : (((-(m : ℤ) : ℤ) : ℚ)) * 2 ^ e = -(m * 2 ^ e) := by
      push_cast
      rw [neg_mul]
    rw [value_pack (rounds_round hm e), hvalue, nearby_neg,
      nearby_of_nonneg (mul_zpow_nonneg m e)]
    rfl
  · rw [compare_eq_iff_eq.mpr rfl, Int.cast_zero, zero_mul, nearby_zero]
    exact congrArg value (unpack_pack_zero .positive)
  · obtain ⟨m, rfl⟩ : ∃ m : ℕ, n = m := ⟨n.toNat, by omega⟩
    have hm : 0 < m := by omega
    rw [compare_gt_iff_gt.mpr hpos]
    simp only [Int.toNat_natCast]
    rw [value_pack (rounds_round hm e), Int.cast_natCast, nearby_of_nonneg (mul_zpow_nonneg m e)]
    rfl

/-- The sum of two finite doubles of any signs is the rounded sum. -/
theorem value_pack_add_finite {s t : Sign} {m n : ℕ} {e f : ℤ} (hm : 0 < m) (hn : 0 < n) :
    value (UnpackedFloat.unpack Format.binary64 (UnpackedFloat.pack Format.binary64
      (UnpackedFloat.add Format.binary64 (.finite s m e hm) (.finite t n f hn))))
        = nearby ((s.apply (m : ℤ) : ℤ) * 2 ^ e + (t.apply (n : ℤ) : ℤ) * 2 ^ f) := by
  obtain ⟨a, ha⟩ : ∃ a, (decreaseExponent m e (min e f)).1 = a := ⟨_, rfl⟩
  obtain ⟨b, hb⟩ : ∃ b, (decreaseExponent n f (min e f)).1 = b := ⟨_, rfl⟩
  have hleft := decreaseExponent_of_le m (min_le_left e f)
  have hright := decreaseExponent_of_le n (min_le_right e f)
  rw [ha] at hleft
  rw [hb] at hright
  have hsigned : ∀ (r : Sign) (k l : ℕ) (g h : ℤ), (k : ℚ) * 2 ^ g = l * 2 ^ h →
      ((r.apply (k : ℤ) : ℤ) : ℚ) * 2 ^ g = (r.apply (l : ℤ) : ℤ) * 2 ^ h := by
    intro r k l g h heq
    cases r with
    | positive => exact heq
    | negative =>
        change (((-(k : ℤ) : ℤ) : ℚ)) * 2 ^ g = ((-(l : ℤ) : ℤ) : ℚ) * 2 ^ h
        push_cast
        rw [neg_mul, neg_mul, heq]
  have hadd : UnpackedFloat.add Format.binary64 (.finite s m e hm) (.finite t n f hn)
      = UnpackedFloat.normalize Format.binary64 (s.apply (a : ℤ) + t.apply (b : ℤ)) (min e f)
        .positive := by
    rw [← ha, ← hb]
    rfl
  rw [hadd, value_pack_normalize, ← hsigned s a m _ _ hleft, ← hsigned t b n _ _ hright]
  congr 1
  push_cast
  ring

/-- A sum in which a zero, an infinity or NaN takes part needs no rounding. -/
theorem add_special_or_finite {u v : UnpackedFloat} (hu : Kept u) (hv : Kept v) :
    (Kept (UnpackedFloat.add Format.binary64 u v) ∧
      value (UnpackedFloat.add Format.binary64 u v) = value u + value v) ∨
    ∃ s m e hm t n f hn, u = .finite s m e hm ∧ v = .finite t n f hn := by
  cases u with
  | notANumber => cases v <;> exact Or.inl ⟨trivial, (Exact.nan_add _).symm⟩
  | infinity s =>
      cases v with
      | notANumber => exact Or.inl ⟨trivial, (Exact.add_nan _).symm⟩
      | infinity t => cases s <;> cases t <;> exact Or.inl ⟨trivial, rfl⟩
      | zero t => cases s <;> exact Or.inl ⟨trivial, rfl⟩
      | finite t n f hn => cases s <;> cases t <;> exact Or.inl ⟨trivial, rfl⟩
  | zero s =>
      cases v with
      | notANumber => exact Or.inl ⟨trivial, rfl⟩
      | infinity t => cases t <;> exact Or.inl ⟨trivial, rfl⟩
      | zero t =>
          have hzero : Exact.finite 0 = .finite (0 + 0) := congrArg Exact.finite (add_zero 0).symm
          cases s <;> cases t <;> exact Or.inl ⟨trivial, hzero⟩
      | finite t n f hn =>
          refine Or.inl ⟨hv, ?_⟩
          have hvalue := value_finite t n f hn
          change value (.finite t n f hn) = .finite 0 + value (.finite t n f hn)
          rw [hvalue, Exact.finite_add_finite, zero_add]
  | finite s m e hm =>
      cases v with
      | notANumber => exact Or.inl ⟨trivial, (Exact.add_nan _).symm⟩
      | infinity t => cases s <;> cases t <;> exact Or.inl ⟨trivial, rfl⟩
      | zero t =>
          refine Or.inl ⟨hu, ?_⟩
          have hvalue := value_finite s m e hm
          change value (.finite s m e hm) = value (.finite s m e hm) + .finite 0
          rw [hvalue, Exact.finite_add_finite, add_zero]
      | finite t n f hn => exact Or.inr ⟨s, m, e, hm, t, n, f, hn, rfl, rfl⟩

/-- The sum of any two doubles is the rounded sum, infinities and NaN included. -/
theorem value_pack_add {u v : UnpackedFloat} (hu : Kept u) (hv : Kept v) :
    value (UnpackedFloat.unpack Format.binary64 (UnpackedFloat.pack Format.binary64
      (UnpackedFloat.add Format.binary64 u v))) = closest (value u + value v) := by
  rcases add_special_or_finite hu hv with ⟨hkept, hsum⟩ | ⟨s, m, e, hm, t, n, f, hn, rfl, rfl⟩
  · rw [unpack_pack hkept, ← hsum, closest_value hkept]
  · rw [value_pack_add_finite, value_finite, value_finite]
    rfl

/-- The opposite of canonical parts is canonical. -/
theorem kept_neg {u : UnpackedFloat} (hu : Kept u) : Kept (UnpackedFloat.neg u) := by
  cases u with
  | finite s m e hm => exact hu
  | infinity s => trivial
  | notANumber => trivial
  | zero s => trivial

/-- It stands for the opposite number. -/
theorem value_neg (u : UnpackedFloat) : value (UnpackedFloat.neg u) = -value u := by
  cases u with
  | infinity s => cases s <;> rfl
  | notANumber => rfl
  | zero s => exact congrArg Exact.finite neg_zero.symm
  | finite s m e hm =>
      cases s with
      | positive => rfl
      | negative => exact congrArg Exact.finite (neg_neg _).symm

/-- A difference is the sum with the other number's sign turned around. -/
theorem sub_eq_add_neg (u v : UnpackedFloat) :
    UnpackedFloat.sub Format.binary64 u v
      = UnpackedFloat.add Format.binary64 u (UnpackedFloat.neg v) := by
  cases u with
  | notANumber => cases v <;> rfl
  | infinity s => cases v <;> rfl
  | zero s => cases v <;> rfl
  | finite s m e hm =>
      cases v with
      | notANumber => rfl
      | infinity t => rfl
      | zero t => rfl
      | finite t n f hn =>
          cases t with
          | positive => rfl
          | negative =>
              have hmantissa := sub_neg_eq_add (s.apply ((decreaseExponent m e (min e f)).1 : ℤ))
                ((decreaseExponent n f (min e f)).1 : ℤ)
              exact congrArg
                (UnpackedFloat.normalize Format.binary64 · (min e f) .positive) hmantissa

/-- The sum of two doubles is the exact one, brought to the grid. -/
theorem exact_sum (x y : Float) : exact (x + y) = closest (exact x + exact y) :=
  value_pack_add (kept_unpack x) (kept_unpack y)

theorem exact_neg (x : Float) : exact (-x) = -exact x := by
  have hpack := unpack_pack (kept_neg (kept_unpack x))
  exact (congrArg value hpack).trans (value_neg _)

/-- The difference of two doubles is the exact one, brought to the grid. -/
theorem exact_difference (x y : Float) : exact (x - y) = closest (exact x - exact y) := by
  have hsub := value_pack_add (kept_unpack x) (kept_neg (kept_unpack y))
  rw [← sub_eq_add_neg, value_neg] at hsub
  exact hsub

end Double

end Montage
