import Mathlib.Algebra.Order.Floor.Semifield
import Montage.Proofs.Numbers.Double

/-!
# Doubles keep the order of times

The frame count of a double is that of the number it stands for.  Together with
order, sums and products of doubles this gives the laws of `MonotoneScalar`, so
everything that rests on those holds of the program as it runs.
-/

namespace Montage

open Float.Model Float.Model.UnpackedFloat

/-! ## Frame counts -/

/-- The nearest whole number, as a fraction's floor. -/
theorem Binary64.nearest_eq (x : Binary64) :
    x.nearest = ⌊(x.significand : ℚ) * 2 ^ x.exponent + 1 / 2⌋₊ := by
  have hfloor : ∀ num den : ℕ, 0 < den →
      (2 * num + den) / (2 * den) = ⌊(num : ℚ) / den + 1 / 2⌋₊ := by
    intro num den hden
    have hden' : (den : ℚ) ≠ 0 := Nat.cast_ne_zero.mpr hden.ne'
    rw [← Nat.floor_div_eq_div (K := ℚ)]
    congr 1
    push_cast
    field_simp
  have hratio : (x.significand : ℚ) * 2 ^ x.exponent = (x.ratio.1 : ℚ) / x.ratio.2 := by
    unfold Binary64.ratio
    by_cases hneg : x.exponent < 0
    · obtain ⟨k, hk⟩ : ∃ k : ℕ, x.exponent = -k := ⟨(-x.exponent).toNat, by omega⟩
      rw [if_pos hneg, hk, zpow_neg, zpow_natCast]
      simp [div_eq_mul_inv]
    · obtain ⟨k, hk⟩ : ∃ k : ℕ, x.exponent = k := ⟨x.exponent.toNat, by omega⟩
      rw [if_neg hneg, hk, zpow_natCast]
      simp
  rw [hratio, ← hfloor _ _ x.ratio_den_pos]
  rfl

namespace Double

/-- The exponent field of a double is the eleven bits above the mantissa. -/
theorem toNat_unpackExponent (b : BitVec 64) :
    (@unpackExponent Format.binary64 b).toNat = b.toNat / 2 ^ 52 % 2 ^ 11 := by
  change (b.extractLsb' 52 11).toNat = _
  rw [BitVec.extractLsb'_toNat, Nat.shiftRight_eq_div_pow]

/-- The mantissa field is the lowest 52 bits. -/
theorem toNat_unpackMantissa (b : BitVec 64) :
    (@unpackMantissa Format.binary64 b).toNat = b.toNat % 2 ^ 52 := by
  change (b.extractLsb' 0 52).toNat = _
  rw [BitVec.extractLsb'_toNat, Nat.shiftRight_zero]

/-- A double is positive when its highest bit is not set. -/
theorem unpackSign_eq_zero (b : BitVec 64) :
    @unpackSign Format.binary64 b = 0#1 ↔ b.toNat < 2 ^ 63 := by
  change b.extractLsb' 63 1 = 0#1 ↔ _
  have h := b.isLt
  rw [← BitVec.toNat_inj, BitVec.extractLsb'_toNat, Nat.shiftRight_eq_div_pow]
  change b.toNat / 2 ^ 63 % 2 ^ 1 = 0 ↔ _
  omega

/-- The double zero stands for zero. -/
theorem exact_zero : exact (Scalar.whole 0 : Float) = .finite 0 := by
  have hzero : (Scalar.whole 0 : Float).toModel.unpack = .zero .positive := by rfl
  rw [exact, hzero]
  rfl

/-- The double at the parts that its bits hold. -/
theorem ofFloat?_eq (x : Float) {s : Sign} {e : BitVec 11} {m : BitVec 52}
    (hs : @unpackSign Format.binary64 x.toModel.toBits.toBitVec = s.toBitVec)
    (he : @unpackExponent Format.binary64 x.toModel.toBits.toBitVec = e)
    (hm : @unpackMantissa Format.binary64 x.toModel.toBits.toBitVec = m) :
    Binary64.ofFloat? x =
      if e = -1#11 then none
      else if e = 0#11 then some ⟨s == .negative, m.toNat, -1074⟩
      else some ⟨s == .negative, m.toNat + 2 ^ 52, e.toNat - 1075⟩ := by
  have hfield := toNat_unpackExponent x.toModel.toBits.toBitVec
  have hfraction := toNat_unpackMantissa x.toModel.toBits.toBitVec
  have hsign := unpackSign_eq_zero x.toModel.toBits.toBitVec
  have hnegative : decide (2 ^ 63 ≤ x.toModel.toBits.toBitVec.toNat) = (s == .negative) := by
    rw [hs] at hsign
    cases s with
    | positive => exact decide_eq_false (by simpa using hsign.mp rfl)
    | negative => exact decide_eq_true (by simpa using mt hsign.mpr (by decide))
  have hones : e = -1#11 ↔ e.toNat = 2047 := BitVec.toNat_inj.symm
  have hzero : e = 0#11 ↔ e.toNat = 0 := BitVec.toNat_inj.symm
  rw [he] at hfield
  rw [hm] at hfraction
  change (if x.toModel.toBits.toBitVec.toNat / 2 ^ 52 % 2 ^ 11 = 2047 then none
    else if x.toModel.toBits.toBitVec.toNat / 2 ^ 52 % 2 ^ 11 = 0 then
      some (Binary64.mk (decide (2 ^ 63 ≤ x.toModel.toBits.toBitVec.toNat))
        (x.toModel.toBits.toBitVec.toNat % 2 ^ 52) (-1074))
    else some (Binary64.mk (decide (2 ^ 63 ≤ x.toModel.toBits.toBitVec.toNat))
        (x.toModel.toBits.toBitVec.toNat % 2 ^ 52 + 2 ^ 52)
        ((x.toModel.toBits.toBitVec.toNat / 2 ^ 52 % 2 ^ 11 : ℕ) - 1075))) = _
  rw [hnegative, ← hfield, ← hfraction]
  simp only [hones, hzero]

/-- The frame count of a finite number, sign and magnitude apart. -/
theorem nearest_signed (s : Sign) {q : ℚ} (hq : 0 ≤ q) :
    Scalar.nearest (signed s (.finite q)) =
      if s == .negative then 0 else min ⌊q + 1 / 2⌋₊ frameLimit := by
  cases s with
  | positive => rfl
  | negative =>
      have hfloor : ⌊-q + 1 / 2⌋₊ = 0 := Nat.floor_eq_zero.mpr (by linarith only [hq])
      change min ⌊-q + 1 / 2⌋₊ frameLimit = 0
      rw [hfloor, Nat.zero_min]

/-- The frame count of a double is that of the number it stands for. -/
theorem nearest_exact (x : Float) : Scalar.nearest x = Scalar.nearest (exact x) := by
  obtain ⟨s, hs⟩ : ∃ s : Sign, @unpackSign Format.binary64 x.toModel.toBits.toBitVec
      = s.toBitVec := ⟨_, (toBitVec_ofBitVec _).symm⟩
  obtain ⟨e, he⟩ : ∃ e, @unpackExponent Format.binary64 x.toModel.toBits.toBitVec = e := ⟨_, rfl⟩
  obtain ⟨m, hm⟩ : ∃ m, @unpackMantissa Format.binary64 x.toModel.toBits.toBitVec = m := ⟨_, rfl⟩
  have hparts := ofFloat?_eq x hs he hm
  have hunpack : x.toModel.unpack = _ := unpack_eq s e m hs he hm
  change frameCount Binary64.nearest x = _
  rw [frameCount, hparts]
  -- neither infinities nor NaN have parts; what counts is whether they are positive
  by_cases hones : e = -1#11
  · have hpos : (0 : Float) < x ↔ Exact.finite 0 < exact x := by
      rw [← exact_zero]
      exact lt_iff
    rw [if_pos hones] at hunpack ⊢
    simp only [hpos]
    rw [exact, hunpack]
    by_cases hinfinite : m = 0#52
    · rw [if_pos hinfinite]
      cases s <;> rfl
    · rw [if_neg hinfinite]
      rfl
  · rw [if_neg hones] at hunpack ⊢
    by_cases hzero : e = 0#11
    · rw [if_pos hzero] at hunpack ⊢
      simp only [Binary64.nearest_eq]
      by_cases hnone : m = 0#52
      · rw [dif_pos hnone] at hunpack
        have hvalue : signed s (.finite ((m.toNat : ℚ) * 2 ^ (-1074 : ℤ))) = .finite 0 := by
          rw [hnone]
          cases s <;> simp [signed]
        rw [exact, hunpack]
        change _ = Scalar.nearest (Exact.finite 0)
        rw [← hvalue]
        exact (nearest_signed s (mul_zpow_nonneg _ _)).symm
      · rw [dif_neg hnone] at hunpack
        rw [exact, hunpack]
        exact (nearest_signed s (mul_zpow_nonneg _ _)).symm
    · rw [if_neg hzero] at hunpack ⊢
      simp only [Binary64.nearest_eq]
      rw [exact, hunpack, add_comm m.toNat]
      exact (nearest_signed s (mul_zpow_nonneg _ _)).symm

/-! ## The laws -/

/-- A double is finite when the number it stands for is. -/
theorem isFinite_exact (x : Float) : Scalar.isFinite x = Scalar.isFinite (exact x) := by
  change x.toModel.unpack.isFinite = Exact.isFinite (value x.toModel.unpack)
  cases x.toModel.unpack with
  | infinity s => cases s <;> rfl
  | notANumber => rfl
  | zero s => rfl
  | finite s m e hm => cases s <;> rfl

/-- Results that are below zero, zero or no number. -/
inductive NotPositive : UnpackedFloat → Prop
  | infinity : NotPositive (.infinity .negative)
  | notANumber : NotPositive .notANumber
  | zero (s : Sign) : NotPositive (.zero s)
  | rounds {q : ℚ} {u : UnpackedFloat} : Rounds .negative q u → NotPositive u

/-- What is not positive is not positive after rounding. -/
theorem NotPositive.value_pack {u : UnpackedFloat} (h : NotPositive u) :
    ¬ 0 < value (UnpackedFloat.unpack Format.binary64 (UnpackedFloat.pack Format.binary64 u)) := by
  cases h with
  | infinity =>
      rw [unpack_pack_infinity]
      exact Bool.false_ne_true
  | notANumber =>
      rw [unpack_pack_notANumber]
      exact Exact.not_lt_nan 0
  | zero s =>
      rw [unpack_pack_zero]
      exact (lt_irrefl (0 : ℚ) <| Exact.finite_lt_finite.mp ·)
  | @rounds q u h =>
      have hgrid := toGrid_nonneg q
      rw [Double.value_pack h, magnitude]
      by_cases hfits : toGrid q < 2 ^ 1024
      · rw [if_pos hfits]
        intro hpos
        have hneg : (0 : ℚ) < -toGrid q := Exact.finite_lt_finite.mp hpos
        linarith
      · rw [if_neg hfits]
        exact Bool.false_ne_true

/-- A positive double times one that is not positive is not positive. -/
theorem not_pos_mul {x y : Float} (hx : 0 < exact x) (hy : ¬ 0 < exact y) :
    ¬ 0 < exact (x * y) := by
  have hkept := kept_unpack y
  refine NotPositive.value_pack (u := UnpackedFloat.mul Format.binary64
    x.toModel.unpack y.toModel.unpack) ?_
  unfold exact at hy
  cases h : y.toModel.unpack with
  | infinity t =>
      cases t with
      | positive => exact absurd (by rw [h]; rfl) hy
      | negative =>
          rcases unpack_of_pos hx with hx | ⟨m, e, hm, hx⟩
          · rw [hx]
            exact .infinity
          · rw [hx]
            exact .infinity
  | notANumber =>
      rcases unpack_of_pos hx with hx | ⟨m, e, hm, hx⟩
      · rw [hx]
        exact .notANumber
      · rw [hx]
        exact .notANumber
  | zero t =>
      rcases unpack_of_pos hx with hx | ⟨m, e, hm, hx⟩
      · rw [hx]
        exact .notANumber
      · rw [hx]
        exact .zero _
  | finite t n f hn =>
      rw [h] at hy hkept
      cases t with
      | positive =>
          have hpos : (0 : ℚ) < n * 2 ^ f := mul_zpow_pos hn f
          exact absurd (Exact.pos_iff.mpr (Or.inl ⟨_, hpos, rfl⟩)) hy
      | negative =>
          rcases unpack_of_pos hx with hx | ⟨m, e, hm, hx⟩
          · rw [hx]
            exact .infinity
          · rw [hx]
            have hrounds := mul_finite (s := .positive) (t := .negative) hm hkept.1
            exact .rounds hrounds

/-- Nothing becomes positive when it is multiplied with zero. -/
theorem not_pos_zero_mul (y : Float) : ¬ 0 < exact ((Scalar.whole 0 : Float) * y) := by
  refine NotPositive.value_pack (u := UnpackedFloat.mul Format.binary64
    (.zero .positive) y.toModel.unpack) ?_
  cases y.toModel.unpack with
  | infinity t => exact .notANumber
  | notANumber => exact .notANumber
  | zero t => exact .zero _
  | finite t n f hn => exact .zero _

/-- Rounding, underflow and overflow of doubles keep the order of positive numbers. -/
instance : MonotoneScalar Float where
  pos_of_not_le_zero {x} hfinite h := by
    rw [isFinite_exact] at hfinite
    have hle : ¬ exact x ≤ 0 := fun hle => h (le_iff.mpr hle)
    have hpos : 0 < exact x := MonotoneScalar.pos_of_not_le_zero hfinite hle
    exact lt_iff.mpr hpos
  pos_of_pos_of_le {x y} hx h := by
    exact lt_iff.mpr (Exact.pos_of_pos_of_le (lt_iff.mp hx) (le_iff.mp h))
  le_add_of_pos {x y} hx hy := by
    have hx' : 0 < exact x := lt_iff.mp hx
    have hy' : 0 < exact y := lt_iff.mp hy
    have hsum := rounded_mono hx' (Exact.le_add_of_pos hx' hy')
    rw [rounded_exact hx', ← exact_add hx' hy'] at hsum
    exact le_iff.mpr hsum
  nearest_zero_mul_whole n := by
    rw [nearest_exact]
    exact Exact.nearest_of_not_pos (not_pos_zero_mul _)
  nearest_mul_whole_mono {x y} n hx h := by
    have hx' : 0 < exact x := lt_iff.mp hx
    have hxy := le_iff.mp h
    have hy' : 0 < exact y := Exact.pos_of_pos_of_le hx' hxy
    rw [nearest_exact, nearest_exact]
    by_cases hn : 0 < exact (Scalar.whole n)
    · rw [exact_mul hx' hn, exact_mul hy' hn]
      exact Exact.nearest_mono
        (rounded_mono (Exact.pos_mul_pos hx' hn) (Exact.mul_mono hn hx' hxy))
    · rw [Exact.nearest_of_not_pos (not_pos_mul hx' hn)]
      exact Nat.zero_le _

end Double

end Montage
