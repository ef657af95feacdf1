import Montage.Proofs.Numbers.Monotone
import Montage.Proofs.Numbers.Unpacked

/-!
# Doubles among the exact numbers

`Double.exact` is the number that a double stands for.  Comparing two doubles
compares these numbers, and a sum or a product of positive doubles is the exact
one brought to the grid, or infinite where it is too large (`rounded`).
-/

namespace Montage

open Float.Model Float.Model.UnpackedFloat

namespace Double

/-! ## The number that a double stands for -/

def signed (s : Sign) (x : Exact) : Exact :=
  match s with
  | .positive => x
  | .negative => -x

def value : UnpackedFloat → Exact
  | .infinity s => signed s (.infinite false)
  | .notANumber => .nan
  | .zero _ => .finite 0
  | .finite s m e _ => signed s (.finite (m * 2 ^ e))

def exact (x : Float) : Exact := value x.toModel.unpack

/-- The parts of a number that fits into a double. -/
def Kept : UnpackedFloat → Prop
  | .finite _ m e _ => Canonical m e ∧ e ≤ 971
  | _ => True

/-- The parts of a double are canonical. -/
theorem kept_unpack (x : Float) : Kept x.toModel.unpack := by
  cases h : x.toModel.unpack with
  | finite s m e hm => exact canonical_of_unpack h
  | infinity s => trivial
  | notANumber => trivial
  | zero s => trivial

/-! ## Order -/

/-- Of two canonical numbers the one with the larger exponent is larger. -/
theorem value_lt_of_exponent_lt {m n : ℕ} {e f : ℤ} (hx : Canonical m e) (hy : Canonical n f)
    (h : e < f) : (m : ℚ) * 2 ^ e < n * 2 ^ f := by
  have hge := hx.ge
  have hfull : 2 ^ 52 ≤ n := hy.full.resolve_right (by omega)
  calc (m : ℚ) * 2 ^ e
      < 2 ^ 53 * 2 ^ e := by
        refine mul_lt_mul_of_pos_right ?_ (two_zpow_pos e)
        exact_mod_cast hx.lt
    _ = 2 ^ 52 * 2 ^ (e + 1) := by
        rw [zpow_add₀ two_ne_zero]
        ring
    _ ≤ 2 ^ 52 * 2 ^ f := by
        refine mul_le_mul_of_nonneg_left ?_ (by positivity)
        exact zpow_le_zpow_right₀ one_le_two (by omega)
    _ ≤ n * 2 ^ f := by
        refine mul_le_mul_of_nonneg_right ?_ (two_zpow_pos f).le
        exact_mod_cast hfull

/-- Numbers in canonical form compare by their exponents first. -/
theorem then_compare {m n : ℕ} {e f : ℤ} (hx : Canonical m e) (hy : Canonical n f) :
    (compare e f).then (compare m n) = compare ((m : ℚ) * 2 ^ e) (n * 2 ^ f) := by
  rcases lt_trichotomy e f with hlt | rfl | hgt
  · rw [compare_lt_iff_lt.mpr hlt, compare_lt_iff_lt.mpr (value_lt_of_exponent_lt hx hy hlt)]
    rfl
  · have hpos := two_zpow_pos e
    rw [compare_eq_iff_eq.mpr rfl]
    rcases lt_trichotomy m n with hlt | rfl | hgt
    · rw [compare_lt_iff_lt.mpr hlt, compare_lt_iff_lt.mpr]
      · rfl
      · exact mul_lt_mul_of_pos_right (Nat.cast_lt.mpr hlt) hpos
    · rw [compare_eq_iff_eq.mpr rfl, compare_eq_iff_eq.mpr rfl]
      rfl
    · rw [compare_gt_iff_gt.mpr hgt, compare_gt_iff_gt.mpr]
      · rfl
      · exact mul_lt_mul_of_pos_right (Nat.cast_lt.mpr hgt) hpos
  · rw [compare_gt_iff_gt.mpr hgt, compare_gt_iff_gt.mpr (value_lt_of_exponent_lt hy hx hgt)]
    rfl

/-- The order of two numbers, NaN apart. -/
def order? : Exact → Exact → Option Ordering
  | .finite x, .finite y => some (compare x y)
  | .nan, _ | _, .nan => none
  | .infinite s, .infinite t => some (compare t s)
  | .infinite s, .finite _ => some (if s then .lt else .gt)
  | .finite _, .infinite t => some (if t then .gt else .lt)

/-- The comparison says that a number is smaller exactly if it is. -/
theorem order?_lt_iff (x y : Exact) : order? x y = some .lt ↔ x < y := by
  cases x with
  | finite p =>
      cases y with
      | finite q => simp [order?, compare_lt_iff_lt]
      | infinite t => cases t <;> simp [order?]
      | nan => simp [order?]
  | infinite s =>
      cases y with
      | finite q => cases s <;> simp [order?]
      | infinite t => cases s <;> cases t <;> decide
      | nan => simp [order?]
  | nan => simp [order?]

/-- It says that a number is not larger exactly if it is not. -/
theorem order?_isLE_iff (x y : Exact) : (order? x y).any (·.isLE) = true ↔ x ≤ y := by
  cases x with
  | finite p =>
      cases y with
      | finite q => simp [order?, Ordering.isLE_iff_ne_gt, compare_le_iff_le]
      | infinite t => cases t <;> simp [order?]
      | nan => simp [order?]
  | infinite s =>
      cases y with
      | finite q => cases s <;> simp [order?]
      | infinite t => cases s <;> cases t <;> decide
      | nan => simp [order?]
  | nan => simp [order?]

/-- It says that two numbers are equal exactly if they are the same and no NaN. -/
theorem order?_eq_iff (x y : Exact) : order? x y = some .eq ↔ x = y ∧ y ≠ .nan := by
  cases x with
  | finite p =>
      cases y with
      | finite q => simp [order?]
      | infinite t => cases t <;> simp [order?]
      | nan => simp [order?]
  | infinite s =>
      cases y with
      | finite q => cases s <;> simp [order?]
      | infinite t => cases s <;> cases t <;> decide
      | nan => simp [order?]
  | nan => simp [order?, eq_comm]

/-- Negative numbers are ordered the other way. -/
theorem swap_compare (p q : ℚ) : (compare p q).swap = compare (-p) (-q) := by
  rcases lt_trichotomy p q with hlt | rfl | hgt
  · rw [compare_lt_iff_lt.mpr hlt, compare_gt_iff_gt.mpr (neg_lt_neg hlt)]
    rfl
  · rw [compare_eq_iff_eq.mpr rfl, compare_eq_iff_eq.mpr rfl]
    rfl
  · rw [compare_gt_iff_gt.mpr hgt, compare_lt_iff_lt.mpr (neg_lt_neg hgt)]
    rfl

/-- Parts that fit into a double compare as the numbers they stand for. -/
theorem compare_value {x y : UnpackedFloat} (hx : Kept x) (hy : Kept y) :
    x.compare y = order? (value x) (value y) := by
  cases x with
  | infinity s =>
      cases y with
      | infinity t => cases s <;> cases t <;> rfl
      | notANumber => cases s <;> rfl
      | zero t => cases s <;> rfl
      | finite t n f hn => cases s <;> cases t <;> rfl
  | notANumber => cases y <;> rfl
  | zero s =>
      cases y with
      | infinity t => cases s <;> cases t <;> rfl
      | notANumber => cases s <;> rfl
      | zero t => cases s <;> rfl
      | finite t n f hn =>
          have hy' := mul_zpow_pos hn f
          cases t with
          | positive => exact congrArg some (compare_lt_iff_lt.mpr hy').symm
          | negative => exact congrArg some (compare_gt_iff_gt.mpr (neg_neg_of_pos hy')).symm
  | finite s m e hm =>
      have hx' := mul_zpow_pos hm e
      cases y with
      | infinity t => cases s <;> cases t <;> rfl
      | notANumber => cases s <;> rfl
      | zero t =>
          cases s with
          | positive => exact congrArg some (compare_gt_iff_gt.mpr hx').symm
          | negative => exact congrArg some (compare_lt_iff_lt.mpr (neg_neg_of_pos hx')).symm
      | finite t n f hn =>
          have hy' := mul_zpow_pos hn f
          cases s with
          | positive =>
              cases t with
              | positive => exact congrArg some (then_compare hx.1 hy.1)
              | negative =>
                  refine congrArg some (compare_gt_iff_gt.mpr ?_).symm
                  exact (neg_neg_of_pos hy').trans hx'
          | negative =>
              cases t with
              | positive =>
                  refine congrArg some (compare_lt_iff_lt.mpr ?_).symm
                  exact (neg_neg_of_pos hx').trans hy'
              | negative =>
                  refine congrArg some ?_
                  rw [then_compare hx.1 hy.1, swap_compare]

/-- Doubles are ordered as the numbers that they stand for. -/
theorem lt_iff {x y : Float} : x < y ↔ exact x < exact y := by
  have hmodel : x < y ↔ (x.toModel.unpack.compare y.toModel.unpack == some .lt) = true :=
    decide_eq_true_iff (p := x.toModel < y.toModel)
  rw [hmodel, beq_iff_eq, compare_value (kept_unpack x) (kept_unpack y)]
  exact order?_lt_iff (exact x) (exact y)

/-- So it is with the order that allows them to be equal. -/
theorem le_iff {x y : Float} : x ≤ y ↔ exact x ≤ exact y := by
  have hmodel : x ≤ y ↔ (x.toModel.unpack.compare y.toModel.unpack).any (·.isLE) = true :=
    decide_eq_true_iff (p := x.toModel ≤ y.toModel)
  rw [hmodel, compare_value (kept_unpack x) (kept_unpack y)]
  exact order?_isLE_iff (exact x) (exact y)

/-- Two doubles are equal when they stand for the same number; NaN is no number. -/
theorem beq_iff {x y : Float} : (x == y) = true ↔ exact x = exact y ∧ exact y ≠ .nan := by
  have hmodel : (x == y) = (x.toModel.unpack.compare y.toModel.unpack == some .eq) := rfl
  rw [hmodel, beq_iff_eq, compare_value (kept_unpack x) (kept_unpack y)]
  exact order?_eq_iff (exact x) (exact y)

/-- The parts of a positive double. -/
theorem unpack_of_pos {x : Float} (hx : 0 < exact x) :
    x.toModel.unpack = .infinity .positive ∨
      ∃ m e, ∃ hm : Canonical m e, x.toModel.unpack = .finite .positive m e hm.pos := by
  have hkept := kept_unpack x
  unfold exact at hx
  cases h : x.toModel.unpack with
  | infinity s =>
      rw [h] at hx
      cases s with
      | positive => exact Or.inl rfl
      | negative => exact absurd hx (by decide)
  | notANumber =>
      rw [h] at hx
      exact absurd hx (Exact.not_lt_nan 0)
  | zero s =>
      rw [h] at hx
      exact absurd hx (lt_irrefl (0 : ℚ) <| Exact.finite_lt_finite.mp ·)
  | finite s m e hm =>
      rw [h] at hx hkept
      cases s with
      | positive => exact Or.inr ⟨m, e, hkept.1, rfl⟩
      | negative =>
          have hpos : (0 : ℚ) < m * 2 ^ e := mul_zpow_pos hm e
          have hneg : (0 : ℚ) < -(m * 2 ^ e) := Exact.finite_lt_finite.mp hx
          exact absurd hpos (neg_pos.mp hneg).not_gt

/-! ## Rounding -/

/-- The magnitude that a double gives to the positive number `x`. -/
def magnitude (x : ℚ) : Exact :=
  if toGrid x < 2 ^ 1024 then .finite (toGrid x) else .infinite false

/-- The number that a double gives to a positive number. -/
def rounded : Exact → Exact
  | .finite x => magnitude x
  | x => x

/-- No rounded number is more than infinite. -/
theorem magnitude_le_infinite (x : ℚ) : magnitude x ≤ .infinite false := by
  unfold magnitude
  by_cases hfits : toGrid x < 2 ^ 1024
  · rw [if_pos hfits]
    exact Exact.finite_le_infinite.mpr rfl
  · rw [if_neg hfits]
    exact Exact.infinite_le_infinite.mpr (Or.inr rfl)

/-- Rounding keeps the order of positive rationals. -/
theorem magnitude_mono {x y : ℚ} (hx : 0 < x) (h : x ≤ y) : magnitude x ≤ magnitude y := by
  have hgrid := toGrid_mono hx h
  by_cases hy : toGrid y < 2 ^ 1024
  · rw [magnitude, magnitude, if_pos (hgrid.trans_lt hy), if_pos hy]
    exact Exact.finite_le_finite.mpr hgrid
  · have hlarge : magnitude y = .infinite false := if_neg hy
    rw [hlarge]
    exact magnitude_le_infinite x

/-- Rounding keeps the order of positive numbers, endless ones included. -/
theorem rounded_mono {x y : Exact} (hx : 0 < x) (h : x ≤ y) : rounded x ≤ rounded y := by
  have hy := Exact.pos_of_pos_of_le hx h
  rcases Exact.pos_iff.mp hx with ⟨p, hp, rfl⟩ | rfl
  · rcases Exact.pos_iff.mp hy with ⟨q, hq, rfl⟩ | rfl
    · exact magnitude_mono hp (Exact.finite_le_finite.mp h)
    · exact magnitude_le_infinite p
  · rcases Exact.pos_iff.mp hy with ⟨q, hq, rfl⟩ | rfl
    · exact absurd h (by simp)
    · exact h

/-- A canonical number with an exponent of at most 971 is one that a double can hold. -/
theorem Canonical.lt_two_pow {m : ℕ} {e : ℤ} (h : Canonical m e) (he : e ≤ 971) :
    (m : ℚ) * 2 ^ e < 2 ^ 1024 := by
  calc (m : ℚ) * 2 ^ e
      < 2 ^ 53 * 2 ^ e := by
        refine mul_lt_mul_of_pos_right ?_ (two_zpow_pos e)
        exact_mod_cast h.lt
    _ ≤ 2 ^ 53 * 2 ^ (971 : ℤ) := by
        refine mul_le_mul_of_nonneg_left ?_ (by positivity)
        exact zpow_le_zpow_right₀ one_le_two he
    _ = 2 ^ 1024 := by rw [zpow_ofNat, ← pow_add]

/-- With a larger exponent it is beyond all doubles. -/
theorem Canonical.two_pow_le {m : ℕ} {e : ℤ} (h : Canonical m e) (he : 971 < e) :
    (2 : ℚ) ^ 1024 ≤ m * 2 ^ e := by
  have hfull : 2 ^ 52 ≤ m := h.full.resolve_right (by omega)
  calc (2 : ℚ) ^ 1024
      = 2 ^ 52 * 2 ^ (972 : ℤ) := by rw [zpow_ofNat, ← pow_add]
    _ ≤ 2 ^ 52 * 2 ^ e := by
        refine mul_le_mul_of_nonneg_left ?_ (by positivity)
        exact zpow_le_zpow_right₀ one_le_two (by omega)
    _ ≤ m * 2 ^ e := by
        refine mul_le_mul_of_nonneg_right ?_ (two_zpow_pos e).le
        exact_mod_cast hfull

/-- Packing a rounded number keeps it, or makes it infinite. -/
theorem value_pack {s : Sign} {x : ℚ} {u : UnpackedFloat} (h : Rounds s x u) :
    value (UnpackedFloat.unpack Format.binary64 (UnpackedFloat.pack Format.binary64 u))
      = signed s (magnitude x) := by
  cases h with
  | zero hzero =>
      have hfits : toGrid x < 2 ^ 1024 := by
        rw [hzero]
        positivity
      rw [unpack_pack_zero, magnitude, if_pos hfits, hzero]
      cases s <;> rfl
  | @finite m e hm hcanonical hgrid =>
      rcases le_or_gt e 971 with he | he
      · have hfits : toGrid x < 2 ^ 1024 := by
          rw [← hgrid]
          exact hcanonical.lt_two_pow he
        rw [unpack_pack_canonical s hcanonical he, magnitude, if_pos hfits, ← hgrid]
        rfl
      · have hlarge : ¬ toGrid x < 2 ^ 1024 := by
          rw [← hgrid]
          exact (hcanonical.two_pow_le he).not_gt
        rw [unpack_pack_overflow s hm (by omega), magnitude, if_neg hlarge]
        rfl

/-- A positive double is not rounded any further. -/
theorem rounded_exact {x : Float} (hx : 0 < exact x) : rounded (exact x) = exact x := by
  have hkept := kept_unpack x
  rcases unpack_of_pos hx with h | ⟨m, e, hm, h⟩
  · rw [exact, h]
    rfl
  · rw [h] at hkept
    rw [exact, h]
    change magnitude (m * 2 ^ e) = .finite (m * 2 ^ e)
    rw [magnitude, toGrid_eq hm.pos hm.lt hm.ge, if_pos (hm.lt_two_pow hkept.2)]

/-! ## Sums and products -/

/-- A number keeps its value when its exponent is brought down. -/
theorem decreaseExponent_of_le (m : ℕ) {e t : ℤ} (h : t ≤ e) :
    ((decreaseExponent m e t).1 : ℚ) * 2 ^ t = m * 2 ^ e := by
  have hexponent : (decreaseExponent m e t).2 = t := by
    simp only [decreaseExponent]
    omega
  have hvalue := decreaseExponent_value m e t
  rwa [hexponent] at hvalue

/-- The sum of two positive finite doubles is the rounded sum. -/
theorem add_finite {m n : ℕ} {e f : ℤ} (hm : 0 < m) (hn : 0 < n) :
    Rounds .positive (m * 2 ^ e + n * 2 ^ f) (UnpackedFloat.add Format.binary64
      (.finite .positive m e hm) (.finite .positive n f hn)) := by
  obtain ⟨a, ha⟩ : ∃ a, (decreaseExponent m e (min e f)).1 = a := ⟨_, rfl⟩
  obtain ⟨b, hb⟩ : ∃ b, (decreaseExponent n f (min e f)).1 = b := ⟨_, rfl⟩
  have hleft := decreaseExponent_of_le m (min_le_left e f)
  have hright := decreaseExponent_of_le n (min_le_right e f)
  rw [ha] at hleft
  rw [hb] at hright
  have hpos : 0 < a := by
    rw [← ha, decreaseExponent, Nat.shiftLeft_eq]
    positivity
  have hsum : ((a + b : ℕ) : ℚ) * 2 ^ min e f = m * 2 ^ e + n * 2 ^ f := by
    rw [← hleft, ← hright]
    push_cast
    ring
  have hadd : UnpackedFloat.add Format.binary64 (.finite .positive m e hm)
      (.finite .positive n f hn)
        = UnpackedFloat.normalize Format.binary64 ((a + b : ℕ) : ℤ) (min e f) .positive := by
    rw [← ha, ← hb]
    rfl
  have hgt : compare ((a + b : ℕ) : ℤ) 0 = .gt := compare_gt_iff_gt.mpr (by omega)
  rw [hadd, UnpackedFloat.normalize, hgt, ← hsum]
  exact rounds_round (by omega) (min e f)

/-- The sum of two positive doubles stands for the rounded sum of what they stand for. -/
theorem exact_add {x y : Float} (hx : 0 < exact x) (hy : 0 < exact y) :
    exact (x + y) = rounded (exact x + exact y) := by
  change value (UnpackedFloat.unpack Format.binary64 (UnpackedFloat.pack Format.binary64
    (UnpackedFloat.add Format.binary64 x.toModel.unpack y.toModel.unpack)))
      = rounded (value x.toModel.unpack + value y.toModel.unpack)
  rcases unpack_of_pos hx with hx | ⟨m, e, hm, hx⟩
  · rcases unpack_of_pos hy with hy | ⟨n, f, hn, hy⟩
    · rw [hx, hy]
      exact congrArg value (unpack_pack_infinity .positive)
    · rw [hx, hy]
      exact congrArg value (unpack_pack_infinity .positive)
  · rcases unpack_of_pos hy with hy | ⟨n, f, hn, hy⟩
    · rw [hx, hy]
      exact congrArg value (unpack_pack_infinity .positive)
    · rw [hx, hy, value_pack (add_finite hm.pos hn.pos)]
      rfl

/-- The product of two finite doubles is the rounded product, with the product of the
signs. -/
theorem mul_finite {s t : Sign} {m n : ℕ} {e f : ℤ} (hm : Canonical m e) (hn : Canonical n f) :
    Rounds (s * t) (m * 2 ^ e * (n * 2 ^ f)) (UnpackedFloat.mul Format.binary64
      (.finite s m e hm.pos) (.finite t n f hn.pos)) := by
  have hpos : 0 < m * n := Nat.mul_pos hm.pos hn.pos
  have hproduct : ((m * n : ℕ) : ℚ) * 2 ^ (e + f) = m * 2 ^ e * (n * 2 ^ f) := by
    rw [zpow_add₀ two_ne_zero]
    push_cast
    ring
  have he : e + f ≤ gridExponent (((m * n : ℕ) : ℚ) * 2 ^ (e + f)) := by
    rw [gridExponent, log_mul_zpow hpos]
    by_cases hfull : 2 ^ 52 ≤ m * n
    · have hlog : 52 ≤ (m * n).log2 := (Nat.le_log2 hpos.ne').mpr hfull
      omega
    · -- Both numbers are subnormal.
      have hsmall : ¬ 2 ^ 52 ≤ m := fun h =>
        hfull (h.trans (Nat.le_mul_of_pos_right m hn.pos))
      have hsmall' : ¬ 2 ^ 52 ≤ n := fun h =>
        hfull (h.trans (Nat.le_mul_of_pos_left n hm.pos))
      have hstep := hm.full.resolve_left hsmall
      have hstep' := hn.full.resolve_left hsmall'
      omega
  rw [← hproduct]
  exact rounds_roundWithAccuracy hpos he

/-- The product of two positive doubles stands for the rounded product of what they stand
for. -/
theorem exact_mul {x y : Float} (hx : 0 < exact x) (hy : 0 < exact y) :
    exact (x * y) = rounded (exact x * exact y) := by
  change value (UnpackedFloat.unpack Format.binary64 (UnpackedFloat.pack Format.binary64
    (UnpackedFloat.mul Format.binary64 x.toModel.unpack y.toModel.unpack)))
      = rounded (value x.toModel.unpack * value y.toModel.unpack)
  rcases unpack_of_pos hx with hx | ⟨m, e, hm, hx⟩
  · rcases unpack_of_pos hy with hy | ⟨n, f, hn, hy⟩
    · rw [hx, hy]
      exact congrArg value (unpack_pack_infinity .positive)
    · have hpos : (0 : ℚ) < n * 2 ^ f := mul_zpow_pos hn.pos f
      rw [hx, hy]
      refine (congrArg value (unpack_pack_infinity .positive)).trans ?_
      exact congrArg rounded (Exact.infinite_mul_finite hpos).symm
  · rcases unpack_of_pos hy with hy | ⟨n, f, hn, hy⟩
    · have hpos : (0 : ℚ) < m * 2 ^ e := mul_zpow_pos hm.pos e
      rw [hx, hy]
      refine (congrArg value (unpack_pack_infinity .positive)).trans ?_
      exact congrArg rounded (Exact.finite_mul_infinite hpos).symm
    · rw [hx, hy, value_pack (mul_finite hm hn)]
      rfl

end Double

end Montage
