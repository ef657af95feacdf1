import Montage.Decimal.Shortest
import Montage.Proofs.Numbers.Parts

/-!
# A decimal is read as the nearest double

`Float.ofScientific` takes one of two ways.  A decimal of few digits with a small
power of ten is a product or a quotient of two doubles that are exact; any other is
computed with on whole numbers and rounded at the end.  Either way the result is the
decimal brought to the grid (`exact_ofScientific`), and so is what `Decimal.toFloat?`
gives for a decimal of a size that doubles can have (`exact_of_toFloat?`).
-/

namespace Montage

open Float.Model Float.Model.UnpackedFloat

namespace Double

/-! ## Quotients -/

/-- The exponent that a quotient is computed at is not above that of the grid. -/
theorem targetExponent_quotient {m n : ℕ} {e f : ℤ} (hm : 0 < m) (hn : 0 < n) :
    Format.binary64.targetExponent (totalExponent m e - totalExponent n f)
      ≤ gridExponent (m * 2 ^ e / (n * 2 ^ f)) := by
  obtain ⟨k, hk⟩ : ∃ k : ℤ, (m.log2 : ℤ) + e - (n.log2 + 1 + f) = k := ⟨_, rfl⟩
  have hbelow : (2 : ℚ) ^ m.log2 ≤ m := by exact_mod_cast Nat.log2_self_le hm.ne'
  have habove : (n : ℚ) ≤ 2 ^ (n.log2 + 1) := by exact_mod_cast Nat.lt_log2_self.le
  have hle : (2 : ℚ) ^ k ≤ m * 2 ^ e / (n * 2 ^ f) := by
    rw [le_div_iff₀ (mul_zpow_pos hn f)]
    calc (2 : ℚ) ^ k * (n * 2 ^ f)
        ≤ 2 ^ k * (2 ^ (n.log2 + 1) * 2 ^ f) := by
          refine mul_le_mul_of_nonneg_left ?_ (two_zpow_pos k).le
          exact mul_le_mul_of_nonneg_right habove (two_zpow_pos f).le
      _ = 2 ^ m.log2 * 2 ^ e := by
          rw [← zpow_natCast, ← zpow_natCast, ← zpow_add₀ two_ne_zero, ← zpow_add₀ two_ne_zero,
            ← zpow_add₀ two_ne_zero, ← hk]
          congr 1
          push_cast
          ring
      _ ≤ m * 2 ^ e := mul_le_mul_of_nonneg_right hbelow (two_zpow_pos e).le
  have hlog := (Int.zpow_le_iff_le_log (b := 2) one_lt_two
    (div_pos (mul_zpow_pos hm e) (mul_zpow_pos hn f))).mp (by exact_mod_cast hle)
  rw [gridExponent]
  change max ((m.log2 : ℤ) + 1 + e - (n.log2 + 1 + f) - 53) (-1074) ≤ _
  omega

/-- The quotient of two positive doubles is the rounded quotient. -/
theorem rounds_div {m n : ℕ} {e f : ℤ} (hm : 0 < m) (hn : 0 < n) :
    Rounds .positive (m * 2 ^ e / (n * 2 ^ f)) (UnpackedFloat.div Format.binary64
      (.finite .positive m e hm) (.finite .positive n f hn)) := by
  obtain ⟨t, ht⟩ : ∃ t, min (e - f) (Format.binary64.targetExponent
      (totalExponent m e - totalExponent n f)) = t := ⟨_, rfl⟩
  obtain ⟨k, hk⟩ : ∃ k : ℕ, e - f = t + k := ⟨(e - f - t).toNat, by omega⟩
  have hk' : (e - f - t).toNat = k := by omega
  have hdiv : UnpackedFloat.div Format.binary64 (.finite .positive m e hm)
      (.finite .positive n f hn) = roundWithAccuracy Format.binary64 .positive
        ((m * 2 ^ k) / n) t (accuracyOfFraction ((m * 2 ^ k) % n) n) := by
    rw [← hk', ← ht, ← Nat.shiftLeft_eq]
    rfl
  have hvalue : (m : ℚ) * 2 ^ e / (n * 2 ^ f) = ((m * 2 ^ k : ℕ) : ℚ) / n * 2 ^ t := by
    have he : e = f + (t + k) := by omega
    have hf := (two_zpow_pos f).ne'
    have hn' : (n : ℚ) ≠ 0 := Nat.cast_ne_zero.mpr hn.ne'
    rw [he, zpow_add₀ two_ne_zero, zpow_add₀ two_ne_zero, zpow_natCast]
    push_cast
    field_simp
  have htarget := targetExponent_quotient (e := e) (f := f) hm hn
  rw [hdiv, hvalue]
  refine rounds_fraction (by positivity) hn ?_
  rw [← hvalue]
  omega

/-- The quotient of two positive finite doubles is the exact one, brought to the grid. -/
theorem exact_div {x y : Float} {p q : ℚ} (hx : exact x = .finite p) (hy : exact y = .finite q)
    (hp : 0 < p) (hq : 0 < q) : exact (x / y) = magnitude (p / q) := by
  have hparts : ∀ {z : Float} {r : ℚ}, exact z = .finite r → 0 < r →
      ∃ m e, ∃ hm : 0 < m, z.toModel.unpack = .finite .positive m e hm ∧ (m : ℚ) * 2 ^ e = r := by
    intro z r hz hr
    have hpos : 0 < exact z := by
      rw [hz]
      exact Exact.pos_iff.mpr (Or.inl ⟨r, hr, rfl⟩)
    rcases unpack_of_pos hpos with h | ⟨m, e, hm, h⟩
    · rw [exact, h] at hz
      cases hz
    · rw [exact, h] at hz
      exact ⟨m, e, hm.pos, h, Exact.finite.inj hz⟩
  obtain ⟨m, e, hm, hxm, hp'⟩ := hparts hx hp
  obtain ⟨n, f, hn, hyn, hq'⟩ := hparts hy hq
  change value (UnpackedFloat.unpack Format.binary64 (UnpackedFloat.pack Format.binary64
    (UnpackedFloat.div Format.binary64 x.toModel.unpack y.toModel.unpack))) = _
  rw [hxm, hyn, value_pack (rounds_div hm hn), hp', hq']
  rfl

/-! ## Whole numbers and powers of ten -/

/-- A whole number of few digits is a double. -/
theorem exact_ofUInt64 {n : UInt64} (h : n.toNat < 2 ^ 53) : exact n.toFloat = .finite n.toNat := by
  have hpack := value_pack_normalize (n.toNat : ℤ) 0
  rw [Int.cast_natCast, zpow_zero, mul_one, nearby_of_nonneg (Nat.cast_nonneg _)] at hpack
  refine hpack.trans ?_
  rcases Nat.eq_zero_or_pos n.toNat with hzero | hpos
  · rw [hzero, Nat.cast_zero, magnitude_zero]
  · have hgrid := toGrid_eq (e := 0) hpos h (by norm_num)
    rw [zpow_zero, mul_one] at hgrid
    have hfits : (n.toNat : ℚ) < 2 ^ 1024 := by
      have hlt : (n.toNat : ℚ) < 2 ^ 53 := by exact_mod_cast h
      exact hlt.trans_le (pow_le_pow_right₀ one_le_two (by norm_num))
    rw [magnitude, hgrid, if_pos hfits]

/-- The table of powers of ten holds powers of ten. -/
theorem exact_powerOfTen (e : ℕ) (h : e < 23) :
    exact Float.exactlyRepresentablePowersOfTen[e] = .finite (10 ^ e) := by
  have htable : ∀ e : ℕ, ∀ h : e < 23,
      (Binary64.ofFloat? Float.exactlyRepresentablePowersOfTen[e]).any (fun p =>
        !p.negative && p.significand * 2 ^ p.exponent.toNat == 10 ^ e *
          2 ^ (-p.exponent).toNat) = true := by
    decide +kernel
  have hentry := htable e h
  cases hparts : Binary64.ofFloat? Float.exactlyRepresentablePowersOfTen[e] with
  | none =>
      rw [hparts] at hentry
      cases hentry
  | some p =>
      simp only [hparts, Option.any_some, Bool.and_eq_true, Bool.not_eq_true', beq_iff_eq]
        at hentry
      obtain ⟨hsign, hscaled⟩ := hentry
      have hvalue := p.value_eq_of_mul hscaled
      rw [(Binary64.exact_of_ofFloat? hparts).2, Binary64.exact, hsign, hvalue, Nat.cast_pow]
      rfl

/-! ## Decimals -/

/-- A decimal of few digits and a power of ten that is exact. -/
theorem exact_ofScientific_small {m e : ℕ} (negative : Bool) (hm : 0 < m) (hm' : m < 2 ^ 53)
    (he : e ≤ 22) :
    exact (Float.ofScientific m negative e) = magnitude (Exact.decimal m negative e) := by
  have hfits : m.toUInt64.toNat = m := by
    rw [Nat.toUInt64_eq, UInt64.toNat_ofNat', Nat.mod_eq_of_lt (hm'.trans (by norm_num))]
  have hdigits : exact m.toUInt64.toFloat = .finite m := by
    rw [exact_ofUInt64 (by rwa [hfits]), hfits]
  have he' : e < 23 := by omega
  have hpower := exact_powerOfTen e he'
  have hmq : (0 : ℚ) < m := Nat.cast_pos.mpr hm
  have htq : (0 : ℚ) < 10 ^ e := by positivity
  rw [Float.ofScientific, dif_pos ⟨hm', he⟩]
  cases negative with
  | true => exact exact_div hdigits hpower hmq htq
  | false =>
      have hleft : 0 < exact m.toUInt64.toFloat := by
        rw [hdigits]
        exact Exact.pos_iff.mpr (Or.inl ⟨_, hmq, rfl⟩)
      have hright : 0 < exact Float.exactlyRepresentablePowersOfTen[e] := by
        rw [hpower]
        exact Exact.pos_iff.mpr (Or.inl ⟨_, htq, rfl⟩)
      refine (exact_mul hleft hright).trans ?_
      rw [hdigits, hpower]
      rfl

/-- From one on, doubles are no finer than 53 binary places. -/
theorem le_gridExponent_of_one_le {x : ℚ} (h : 1 ≤ x) : -53 ≤ gridExponent x := by
  have hpos : 0 < x := by linarith
  have hlog := (Int.zpow_le_iff_le_log (b := 2) (x := 0) one_lt_two hpos).mp (by simpa using h)
  rw [gridExponent]
  omega

/-- A product of doubles is computed in whole numbers and rounded once. -/
theorem mul_eq_roundWithAccuracy {s t : Sign} {m n : ℕ} {e f : ℤ} (hm : 0 < m) (hn : 0 < n) :
    UnpackedFloat.mul Format.binary64 (.finite s m e hm) (.finite t n f hn)
      = roundWithAccuracy Format.binary64 (s * t) (m * n) (e + f) .exact := rfl

/-- A decimal that is computed with on whole numbers. -/
theorem rounds_ofScientific {m : ℕ} {e : ℤ} (hm : 0 < m) (hlow : -2048 ≤ e) (hhigh : e ≤ 2048) :
    Rounds .positive (m * 10 ^ e) (UnpackedFloat.ofScientific Format.binary64 m e) := by
  have hup : ¬ e > 2 ^ Format.binary64.exponentBits := by
    change ¬ e > (2 ^ 11 : ℤ)
    omega
  have hdown : ¬ e < -(2 ^ Format.binary64.exponentBits + (m.log2 : ℤ)) := by
    change ¬ e < -((2 ^ 11 : ℤ) + m.log2)
    omega
  rw [UnpackedFloat.ofScientific, dif_neg hm.ne', if_neg hup, if_neg hdown]
  -- a product is computed exactly and rounded once; a quotient keeps a bit for its remainder
  by_cases hnonneg : 0 ≤ e
  · obtain ⟨k, rfl⟩ := Int.eq_ofNat_of_zero_le hnonneg
    have hvalue : (m : ℚ) * 10 ^ (k : ℤ) = ((m * 2 ^ 53 * 10 ^ k : ℕ) : ℚ) * 2 ^ (-53 : ℤ) := by
      rw [zpow_natCast]
      push_cast
      norm_num
      ring
    have hone : (1 : ℚ) ≤ m * 10 ^ (k : ℤ) := by
      rw [zpow_natCast]
      exact_mod_cast (show 1 ≤ m * 10 ^ k from Nat.mul_pos hm (by positivity))
    have hround := rounds_roundWithAccuracy (s := .positive) (m := m * 2 ^ 53 * 10 ^ k) (e := -53)
      (by positivity) (by rw [← hvalue]; exact le_gridExponent_of_one_le hone)
    rw [← hvalue] at hround
    have hshift : m <<< Format.binary64.mantissaBits = m * 2 ^ 53 := Nat.shiftLeft_eq m 53
    rw [if_pos hnonneg, mul_eq_roundWithAccuracy]
    simp only [hshift, Int.toNat_natCast]
    exact hround
  · obtain ⟨k, rfl⟩ : ∃ k : ℕ, e = -k := ⟨(-e).toNat, by omega⟩
    have hpower : (- -(k : ℤ)).toNat = k := by omega
    have hvalue : (m : ℚ) * 10 ^ (-(k : ℤ))
        = m * 2 ^ (0 : ℤ) / (((10 ^ (- -(k : ℤ)).toNat : ℕ) : ℚ) * 2 ^ (0 : ℤ)) := by
      rw [hpower, zpow_neg, zpow_natCast, zpow_zero]
      push_cast
      field_simp
    have hround := rounds_div (e := 0) (f := 0) hm (show 0 < 10 ^ (- -(k : ℤ)).toNat by positivity)
    rw [← hvalue] at hround
    rw [if_neg hnonneg]
    exact hround

/-- A decimal is brought to the grid. -/
theorem exact_ofScientific {m e : ℕ} (negative : Bool) (hm : 0 < m) (he : e ≤ 2048) :
    exact (Float.ofScientific m negative e) = magnitude (Exact.decimal m negative e) := by
  by_cases hsmall : m < 2 ^ 53 ∧ e ≤ 22
  · exact exact_ofScientific_small negative hm hsmall.1 hsmall.2
  · rw [Float.ofScientific, dif_neg hsmall]
    obtain ⟨power, hpower⟩ : ∃ power : ℤ,
        (if negative then Int.negOfNat e else Int.ofNat e) = power := ⟨_, rfl⟩
    have hvalue : Exact.decimal m negative e = m * 10 ^ power := by
      rw [← hpower]
      cases negative with
      | true =>
          simp only [Exact.decimal, ↓reduceIte, Int.negOfNat_eq, Int.ofNat_eq_natCast]
          rw [zpow_neg, zpow_natCast, div_eq_mul_inv]
      | false =>
          simp only [Exact.decimal, Bool.false_eq_true, ↓reduceIte, Int.ofNat_eq_natCast]
          rw [zpow_natCast]
    have hbounds : -2048 ≤ power ∧ power ≤ 2048 := by
      rw [← hpower]
      cases negative with
      | true =>
          rw [if_pos rfl, Int.negOfNat_eq, Int.ofNat_eq_natCast]
          omega
      | false =>
          rw [if_neg Bool.false_ne_true, Int.ofNat_eq_natCast]
          omega
    simp only [hpower]
    rw [hvalue]
    exact value_pack (rounds_ofScientific hm hbounds.1 hbounds.2)

end Double

namespace Decimal

/-- The number that a decimal stands for. -/
def value (d : Decimal) : ℚ := d.digits * 10 ^ d.exponent

theorem ten_zpow_pos (e : ℤ) : (0 : ℚ) < 10 ^ e := zpow_pos (by norm_num) e

theorem value_pos {d : Decimal} (h : 0 < d.digits) : 0 < d.value :=
  mul_pos (Nat.cast_pos.mpr h) (ten_zpow_pos _)

/-- A whole number is below the power of ten with as many zeros as it has digits. -/
theorem lt_pow_digitCount (n : ℕ) : n < 10 ^ digitCount n :=
  (Nat.length_toDigits_le_iff (by norm_num) Nat.length_toDigits_pos).mp le_rfl

/-- It is not below the power of ten with one zero less. -/
theorem pow_digitCount_le {n : ℕ} (h : 0 < n) : 10 ^ (digitCount n - 1) ≤ n := by
  rcases Nat.eq_zero_or_pos (digitCount n - 1) with hzero | hpos
  · rw [hzero, pow_zero]
    exact h
  · by_contra hlt
    have hcount := (Nat.length_toDigits_le_iff (by norm_num) hpos).mpr (not_le.mp hlt)
    change digitCount n ≤ digitCount n - 1 at hcount
    omega

/-- The place of the leading digit of a decimal says how large it is. -/
theorem value_bounds {d : Decimal} (h : 0 < d.digits) :
    10 ^ (d.exponent + digitCount d.digits - 1) ≤ d.value ∧
      d.value < 10 ^ (d.exponent + digitCount d.digits) := by
  have hcount : 0 < digitCount d.digits := Nat.length_toDigits_pos
  have hlow : (10 : ℚ) ^ (digitCount d.digits - 1) ≤ d.digits := by
    exact_mod_cast pow_digitCount_le h
  have hhigh : (d.digits : ℚ) < 10 ^ digitCount d.digits := by
    exact_mod_cast lt_pow_digitCount d.digits
  have hpower := ten_zpow_pos d.exponent
  constructor
  · have hsplit : d.exponent + digitCount d.digits - 1
        = ((digitCount d.digits - 1 : ℕ) : ℤ) + d.exponent := by omega
    rw [hsplit, zpow_add₀ (by norm_num), zpow_natCast]
    exact mul_le_mul_of_nonneg_right hlow hpower.le
  · rw [add_comm, zpow_add₀ (by norm_num), zpow_natCast]
    exact mul_lt_mul_of_pos_right hhigh hpower

/-- The mantissa and the exponent of a decimal stand for its value, with either sign of the
exponent. -/
theorem decimal_eq_value (d : Decimal) :
    Exact.decimal d.digits (decide (d.exponent < 0)) d.exponent.natAbs = d.value := by
  by_cases hneg : d.exponent < 0
  · obtain ⟨k, hk⟩ : ∃ k : ℕ, d.exponent = -k := ⟨d.exponent.natAbs, by omega⟩
    have habs : d.exponent.natAbs = k := by omega
    rw [Exact.decimal, decide_eq_true hneg, if_pos rfl, value, habs, hk, zpow_neg, zpow_natCast,
      div_eq_mul_inv]
  · obtain ⟨k, hk⟩ := Int.eq_ofNat_of_zero_le (not_lt.mp hneg)
    have habs : d.exponent.natAbs = k := by omega
    rw [Exact.decimal, decide_eq_false hneg, if_neg Bool.false_ne_true, value, habs, hk,
      zpow_natCast]

/-- A decimal of a size that doubles can have is brought to the grid. -/
theorem exact_of_toFloat? {d : Decimal} {q : ℚ} (hdigits : 0 < d.digits)
    (hexponent : d.exponent.natAbs ≤ 2048) (hlow : (10 : ℚ) ^ (-400 : ℤ) ≤ d.value)
    (hhigh : d.value < (10 : ℚ) ^ (399 : ℤ)) (h : Double.magnitude d.value = .finite q) :
    ∃ x, d.toFloat? = some x ∧ Double.exact x = .finite q := by
  obtain ⟨hplaceLow, hplaceHigh⟩ := value_bounds hdigits
  have habove := (zpow_lt_zpow_iff_right₀ (by norm_num)).mp (hlow.trans_lt hplaceHigh)
  have hbelow := (zpow_lt_zpow_iff_right₀ (by norm_num)).mp (hplaceLow.trans_lt hhigh)
  have hx := Double.exact_ofScientific (decide (d.exponent < 0)) hdigits hexponent
  rw [decimal_eq_value, h] at hx
  have hfinite : (Float.ofScientific d.digits (decide (d.exponent < 0))
      d.exponent.natAbs).isFinite = true := by
    have hscalar := Double.isFinite_exact (Float.ofScientific d.digits (decide (d.exponent < 0))
      d.exponent.natAbs)
    rw [hx] at hscalar
    exact hscalar
  refine ⟨_, ?_, hx⟩
  have hsmall : ¬ (d.digits = 0 ∨ d.exponent + digitCount d.digits < -400) := by omega
  have hlarge : ¬ 400 < d.exponent + digitCount d.digits := by omega
  simp only [toFloat?, if_neg hsmall, if_neg hlarge, if_pos hfinite]

end Decimal

end Montage
