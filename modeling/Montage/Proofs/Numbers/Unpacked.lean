import Montage.Proofs.Numbers.Rounding

/-!
# Rounding and packing a double

A double is taken apart into a sign, a mantissa and an exponent, computed with,
rounded and put together again.  Two facts are proved about that:

* rounding a positive number `m * 2 ^ e` gives the nearest number of the grid, in
  the one form that doubles are kept in (`rounds_round`);
* a number in that form is the same after it has been put together and taken
  apart again, unless it is too large; then it is infinite
  (`unpack_pack_canonical`, `unpack_pack_overflow`).

Rounding shifts a mantissa one place at a time and keeps two bits about what has
been dropped.  `shiftRight_fraction` gives both bits in closed form, also where the
mantissa is the quotient of a division that left a remainder.
-/

namespace Montage

open Float.Model Float.Model.UnpackedFloat

namespace Double

/-! ## Shifting a mantissa -/

/-- What is left of the mantissa of a fraction that is shifted by `k` places: the
quotient, and two bits for where the remainder lies within a step. -/
theorem shiftRight_fraction (m : ℕ) {d : ℕ} (hd : 0 < d) (k : ℕ) :
    ExtendedMantissa.ofMantissaAndAccuracy (m / d) (accuracyOfFraction (m % d) d) >>> k =
      ⟨m / (d * 2 ^ k), decide (d * 2 ^ k ≤ 2 * (m % (d * 2 ^ k))),
        decide (2 * (m % (d * 2 ^ k)) ≠ 0 ∧ 2 * (m % (d * 2 ^ k)) ≠ d * 2 ^ k)⟩ := by
  change k.repeat ExtendedMantissa.shiftRightOne _ = _
  induction k with
  | zero =>
      rw [Nat.repeat, pow_zero, mul_one, accuracyOfFraction]
      by_cases hzero : m % d = 0
      · simp [hzero, ExtendedMantissa.ofMantissaAndAccuracy, hd.ne']
      · rw [if_neg hzero]
        rcases lt_trichotomy (2 * (m % d)) d with hlt | heq | hgt
        · rw [compare_lt_iff_lt.mpr hlt]
          simp [ExtendedMantissa.ofMantissaAndAccuracy, hlt.not_ge, hlt.ne, hzero]
        · rw [compare_eq_iff_eq.mpr heq]
          simp [ExtendedMantissa.ofMantissaAndAccuracy, heq]
        · rw [compare_gt_iff_gt.mpr hgt]
          simp [ExtendedMantissa.ofMantissaAndAccuracy, hgt.le, hgt.ne', hzero]
  | succ k ih =>
      -- one bit more is lost: it becomes the round bit, and the old round bit becomes sticky
      obtain ⟨w, hw⟩ : ∃ w, d * 2 ^ k = w := ⟨_, rfl⟩
      have hpos : 0 < w := by
        rw [← hw]
        positivity
      have hwide : d * 2 ^ (k + 1) = w * 2 := by
        rw [← hw]
        ring
      have hmod : m % (w * 2) = m / w % 2 * w + m % w := by
        rw [Nat.mod_mul]
        ring
      have hlt : m % w < w := Nat.mod_lt _ hpos
      have hbit : m / w % 2 = 0 ∨ m / w % 2 = 1 := Nat.mod_two_eq_zero_or_one _
      rw [hw] at ih
      rw [Nat.repeat, ih, ExtendedMantissa.shiftRightOne, hwide, hmod, Nat.div_div_eq_div_mul]
      congr 1
      · rcases hbit with hbit | hbit
        · rw [hbit, zero_mul, zero_add]
          have hno : ¬ w * 2 ≤ 2 * (m % w) := by omega
          simp [hno]
        · have hyes : w * 2 ≤ 2 * (w + m % w) := by omega
          rw [hbit, one_mul]
          simp [hyes]
      · rw [Bool.eq_iff_iff]
        simp only [Bool.or_eq_true, decide_eq_true_eq]
        rcases hbit with hbit | hbit
        · rw [hbit]
          omega
        · rw [hbit]
          omega

/-- A whole number is a fraction over one. -/
theorem accuracyOfFraction_one (m : ℕ) : accuracyOfFraction (m % 1) 1 = .exact := by
  rw [Nat.mod_one]
  rfl

/-- Shifting a mantissa to the right remembers whether something was lost, and whether it was
half a step. -/
theorem shiftRight_exact (m k : ℕ) :
    ExtendedMantissa.ofMantissaAndAccuracy m .exact >>> k =
      ⟨m / 2 ^ k, decide (2 ^ k ≤ 2 * (m % 2 ^ k)),
        decide (2 * (m % 2 ^ k) ≠ 0 ∧ 2 * (m % 2 ^ k) ≠ 2 ^ k)⟩ := by
  have hfraction := shiftRight_fraction m one_pos k
  rwa [Nat.div_one, accuracyOfFraction_one, one_mul] at hfraction

/-- Rounding a shifted mantissa rounds the quotient to the nearest whole number. -/
theorem roundedMantissa_shiftRight (m : ℕ) {d : ℕ} (hd : 0 < d) (k : ℕ) :
    (ExtendedMantissa.ofMantissaAndAccuracy (m / d)
      (accuracyOfFraction (m % d) d) >>> k).roundedMantissa = halfEven (m / (d * 2 ^ k)) := by
  obtain ⟨w, hw⟩ : ∃ w, d * 2 ^ k = w := ⟨_, rfl⟩
  have hpos : 0 < w := by
    rw [← hw]
    positivity
  have hdiv := halfEven_div m hpos
  have hcast : (d : ℚ) * 2 ^ k = w := by
    rw [← hw]
    push_cast
    ring
  rw [shiftRight_fraction m hd, hw, hcast, hdiv, ExtendedMantissa.roundedMantissa]
  rcases lt_trichotomy (2 * (m % w)) w with hlt | heq | hgt
  · have hround : ¬ w ≤ 2 * (m % w) := not_le.mpr hlt
    rw [if_pos hlt]
    by_cases hzero : 2 * (m % w) = 0
    · simp [hzero, hpos.ne', ExtendedMantissa.accuracy, Accuracy.roundToNearestEven]
    · have hrest : m % w ≠ 0 := by omega
      simp [hround, hrest, hlt.ne, ExtendedMantissa.accuracy, Accuracy.roundToNearestEven]
  · rw [if_neg heq.not_lt, if_pos heq]
    simp [heq, ExtendedMantissa.accuracy, Accuracy.roundToNearestEven]
  · rw [if_neg hgt.not_gt, if_neg hgt.ne']
    have hrest : m % w ≠ 0 := by omega
    simp [hgt.le, hgt.ne', hrest, ExtendedMantissa.accuracy, Accuracy.roundToNearestEven]

/-! ## Rounding -/

/-- Mantissa and exponent in the one form in which a double keeps them. -/
structure Canonical (m : ℕ) (e : ℤ) : Prop where
  pos : 0 < m
  lt : m < 2 ^ 53
  ge : -1074 ≤ e
  full : 2 ^ 52 ≤ m ∨ e = -1074

/-- The binary logarithm of a number from its significand and its exponent. -/
theorem log_mul_zpow {m : ℕ} (hm : 0 < m) (e : ℤ) : Int.log 2 ((m : ℚ) * 2 ^ e) = m.log2 + e := by
  have hpos : (0 : ℚ) < m * 2 ^ e := mul_zpow_pos hm e
  have hlow : (2 : ℚ) ^ m.log2 ≤ m := by exact_mod_cast Nat.log2_self_le hm.ne'
  have hhigh : (m : ℚ) < 2 ^ (m.log2 + 1) := by exact_mod_cast Nat.lt_log2_self
  have hle : (m.log2 : ℤ) + e ≤ Int.log 2 ((m : ℚ) * 2 ^ e) := by
    rw [← Int.zpow_le_iff_le_log one_lt_two hpos]
    push_cast
    rw [zpow_add₀ two_ne_zero, zpow_natCast]
    exact mul_le_mul_of_nonneg_right hlow (two_zpow_pos e).le
  have hlt : Int.log 2 ((m : ℚ) * 2 ^ e) < (m.log2 : ℤ) + 1 + e := by
    rw [← Int.lt_zpow_iff_log_lt one_lt_two hpos]
    push_cast
    rw [zpow_add₀ two_ne_zero]
    refine mul_lt_mul_of_pos_right ?_ (two_zpow_pos e)
    exact_mod_cast hhigh
  omega

/-- The exponent that a double wants is that of the grid. -/
theorem targetExponent_eq {m : ℕ} (hm : 0 < m) (e : ℤ) :
    Format.binary64.targetExponent (totalExponent m e) = gridExponent (m * 2 ^ e) := by
  rw [gridExponent, log_mul_zpow hm e]
  change max ((m.log2 : ℤ) + 1 + e - 53) (-1074) = _
  congr 1
  ring

/-- The size of a fraction that is not below one is that of its quotient. -/
theorem log_fraction {m d : ℕ} (hd : 0 < d) (hquotient : 0 < m / d) (e : ℤ) :
    Int.log 2 ((m : ℚ) / d * 2 ^ e) = Int.log 2 (((m / d : ℕ) : ℚ) * 2 ^ e) := by
  obtain ⟨n, hn⟩ : ∃ n, m / d = n := ⟨_, rfl⟩
  have hd' : (0 : ℚ) < d := Nat.cast_pos.mpr hd
  have hfloor : (n : ℚ) ≤ m / d := by
    rw [le_div_iff₀ hd', ← hn]
    exact_mod_cast Nat.div_mul_le_self m d
  have hceil : (m : ℚ) / d < n + 1 := by
    rw [div_lt_iff₀ hd']
    have hlt := Nat.lt_mul_div_succ m hd
    rw [hn, mul_comm] at hlt
    exact_mod_cast hlt
  rw [hn] at hquotient ⊢
  have hpos : (0 : ℚ) < n * 2 ^ e := mul_zpow_pos hquotient e
  have hstep := two_zpow_pos e
  have hle : (n : ℚ) * 2 ^ e ≤ m / d * 2 ^ e := mul_le_mul_of_nonneg_right hfloor hstep.le
  refine le_antisymm ?_ (Int.log_mono_right hpos hle)
  -- between a whole number and the next one there is no power of two
  have hbits : ((n + 1 : ℕ) : ℚ) ≤ 2 ^ (n.log2 + 1) := by exact_mod_cast Nat.lt_log2_self
  have hlt : (m : ℚ) / d * 2 ^ e < 2 ^ ((n.log2 : ℤ) + e + 1) := by
    calc (m : ℚ) / d * 2 ^ e
        < (n + 1) * 2 ^ e := mul_lt_mul_of_pos_right hceil hstep
      _ ≤ 2 ^ (n.log2 + 1) * 2 ^ e := by
          refine mul_le_mul_of_nonneg_right ?_ hstep.le
          exact_mod_cast hbits
      _ = 2 ^ ((n.log2 : ℤ) + e + 1) := by
          rw [← zpow_natCast, ← zpow_add₀ two_ne_zero]
          congr 1
          push_cast
          ring
  have hlog := (Int.lt_zpow_iff_log_lt (b := 2) one_lt_two (hpos.trans_le hle)).mp
    (by exact_mod_cast hlt)
  rw [log_mul_zpow hquotient]
  omega

/-- So is the exponent that a double wants for the quotient of a fraction, if the
quotient has enough digits. -/
theorem targetExponent_fraction {m d : ℕ} (hm : 0 < m) (hd : 0 < d) {e : ℤ}
    (he : e ≤ gridExponent (m / d * 2 ^ e)) :
    Format.binary64.targetExponent (totalExponent (m / d) e) = gridExponent (m / d * 2 ^ e) := by
  rcases Nat.eq_zero_or_pos (m / d) with hzero | hquotient
  · -- The fraction is below one step, which is then as short as steps can be.
    have hd' : (0 : ℚ) < d := Nat.cast_pos.mpr hd
    have hbelow : (m : ℚ) / d * 2 ^ e < 2 ^ e := by
      have hlt : m < d := (Nat.div_eq_zero_iff.mp hzero).resolve_left hd.ne'
      have hone : (m : ℚ) / d < 1 := (div_lt_one hd').mpr (Nat.cast_lt.mpr hlt)
      exact (mul_lt_mul_of_pos_right hone (two_zpow_pos e)).trans_eq (one_mul _)
    have hpos : (0 : ℚ) < m / d * 2 ^ e :=
      mul_pos (div_pos (Nat.cast_pos.mpr hm) hd') (two_zpow_pos e)
    have hlog := (Int.lt_zpow_iff_log_lt (b := 2) one_lt_two hpos).mp (by exact_mod_cast hbelow)
    rw [hzero]
    rw [gridExponent] at he ⊢
    change max ((0 : ℤ) + 1 + e - 53) (-1074) = _
    omega
  · rw [targetExponent_eq hquotient, gridExponent, gridExponent, log_fraction hd hquotient]

/-- A mantissa that is shifted to the right is divided by a power of two. -/
theorem mul_zpow_div_zpow (x : ℚ) (e : ℤ) (k : ℕ) :
    x * 2 ^ e / 2 ^ (e + k : ℤ) = x / 2 ^ k := by
  rw [zpow_add₀ two_ne_zero, zpow_natCast, mul_comm ((2 : ℚ) ^ e), mul_div_mul_right]
  exact (two_zpow_pos e).ne'

/-- The result of rounding `x` to a double of unbounded size. -/
inductive Rounds (s : Sign) (x : ℚ) : UnpackedFloat → Prop
  | zero : toGrid x = 0 → Rounds s x (.zero s)
  | finite {m : ℕ} {e : ℤ} (h : 0 < m) : Canonical m e → m * 2 ^ e = toGrid x →
      Rounds s x (.finite s m e h)

/-- A shift to the wanted exponent, `k` places below it. -/
theorem shiftToTargetExponent_eq {m k : ℕ} {e : ℤ} (accuracy : Accuracy)
    (h : (Format.binary64.targetExponent (totalExponent m e) - e).toNat = k) :
    shiftToTargetExponent Format.binary64 m e accuracy =
      (ExtendedMantissa.ofMantissaAndAccuracy m accuracy >>> k, e + k) := by
  rw [← h]
  rfl

/-- A canonical number has the exponent that it wants. -/
theorem Canonical.targetExponent_le {m : ℕ} {e : ℤ} (h : Canonical m e) :
    Format.binary64.targetExponent (totalExponent m e) ≤ e := by
  have hlog : m.log2 < 53 := (Nat.log2_lt h.pos.ne').mpr h.lt
  have hge := h.ge
  change max ((m.log2 : ℤ) + 1 + e - 53) (-1074) ≤ e
  omega

/-- The parts that a mantissa and an exponent make; a mantissa may be zero here. -/
def assembled (s : Sign) (m : ℕ) (e : ℤ) : UnpackedFloat :=
  if h : m = 0 then .zero s else .finite s m e (Nat.pos_of_ne_zero h)

/-- A number that lies on the grid is put together as the rounded one. -/
theorem rounds_assembled {s : Sign} {x : ℚ} {m : ℕ} {e : ℤ} (hvalue : m * 2 ^ e = toGrid x)
    (hcanonical : 0 < m → Canonical m e) : Rounds s x (assembled s m e) := by
  unfold assembled
  by_cases h : m = 0
  · rw [dif_pos h]
    refine .zero ?_
    rw [← hvalue, h, Nat.cast_zero, zero_mul]
  · rw [dif_neg h]
    exact .finite _ (hcanonical (Nat.pos_of_ne_zero h)) hvalue

/-- The steps of the grid, brought into canonical form. -/
theorem rounds_gridSteps {s : Sign} {x : ℚ} (hx : 0 < x) {rest : ExtendedMantissa} {exponent : ℤ}
    (h : shiftToTargetExponent Format.binary64 (gridSteps x) (gridExponent x) .exact
      = (rest, exponent)) : Rounds s x (assembled s rest.mantissa exponent) := by
  have hge := gridExponent_ge x
  have hfull : 2 ^ 52 ≤ gridSteps x ∨ gridExponent x = -1074 :=
    or_iff_not_imp_right.mpr (le_gridSteps hx)
  rcases (gridSteps_le hx).lt_or_eq with hlt | heq
  · have hamount : (Format.binary64.targetExponent
        (totalExponent (gridSteps x) (gridExponent x)) - gridExponent x).toNat = 0 := by
      rcases Nat.eq_zero_or_pos (gridSteps x) with hzero | hpos
      · have hstep : gridExponent x = -1074 := hfull.resolve_left (by omega)
        rw [hzero, hstep]
        rfl
      · have hle := (Canonical.mk hpos hlt hge hfull).targetExponent_le
        omega
    rw [shiftToTargetExponent_eq .exact hamount, shiftRight_exact] at h
    obtain ⟨rfl, rfl⟩ := Prod.mk.inj h
    rw [pow_zero, Nat.div_one, Nat.cast_zero, add_zero]
    exact rounds_assembled rfl fun hpos => ⟨hpos, hlt, hge, hfull⟩
  · -- All digits were ones, and rounding carried into one more digit.
    have hamount : (Format.binary64.targetExponent
        (totalExponent (gridSteps x) (gridExponent x)) - gridExponent x).toNat = 1 := by
      rw [heq]
      change (max (((2 ^ 53 : ℕ).log2 : ℤ) + 1 + gridExponent x - 53) (-1074)
        - gridExponent x).toNat = 1
      rw [Nat.log2_two_pow]
      omega
    rw [shiftToTargetExponent_eq .exact hamount, shiftRight_exact] at h
    obtain ⟨rfl, rfl⟩ := Prod.mk.inj h
    have hhalf : gridSteps x / 2 ^ 1 = 2 ^ 52 := by
      rw [heq]
      norm_num
    rw [hhalf]
    refine rounds_assembled ?_ fun hpos => ⟨hpos, by norm_num, by omega, Or.inl le_rfl⟩
    rw [toGrid, heq, Nat.cast_one, zpow_add₀ two_ne_zero, zpow_one]
    push_cast
    ring

/-- Dropping the digits of a fraction rounds it. -/
theorem rounds_fraction {s : Sign} {m d : ℕ} {e : ℤ} (hm : 0 < m) (hd : 0 < d)
    (he : e ≤ gridExponent (m / d * 2 ^ e)) :
    Rounds s (m / d * 2 ^ e)
      (roundWithAccuracy Format.binary64 s (m / d) e (accuracyOfFraction (m % d) d)) := by
  obtain ⟨x, hx⟩ : ∃ x : ℚ, (m : ℚ) / d * 2 ^ e = x := ⟨_, rfl⟩
  have hpos : 0 < x := by
    rw [← hx]
    exact mul_pos (div_pos (Nat.cast_pos.mpr hm) (Nat.cast_pos.mpr hd)) (two_zpow_pos e)
  obtain ⟨k, hk⟩ : ∃ k : ℕ, gridExponent x = e + k :=
    ⟨(gridExponent x - e).toNat, by rw [hx] at he; omega⟩
  have hshift := shiftToTargetExponent_eq (m := m / d) (e := e) (k := k)
    (accuracyOfFraction (m % d) d) (by rw [targetExponent_fraction hm hd he, hx, hk]; omega)
  have hsteps : (ExtendedMantissa.ofMantissaAndAccuracy (m / d)
      (accuracyOfFraction (m % d) d) >>> k).roundedMantissa = gridSteps x := by
    rw [roundedMantissa_shiftRight m hd, gridSteps, hk, ← hx, mul_zpow_div_zpow, div_div]
  obtain ⟨rest, exponent, hrest⟩ : ∃ rest exponent, shiftToTargetExponent Format.binary64
      (gridSteps x) (gridExponent x) .exact = (rest, exponent) := ⟨_, _, rfl⟩
  have hround : roundWithAccuracy Format.binary64 s (m / d) e (accuracyOfFraction (m % d) d)
      = assembled s rest.mantissa exponent := by
    unfold roundWithAccuracy
    rw [hshift]
    change assembled s (shiftToTargetExponent Format.binary64 _ _ .exact).1.mantissa
      (shiftToTargetExponent Format.binary64 _ _ .exact).2 = _
    rw [hsteps, ← hk, hrest]
  rw [hround, hx]
  exact rounds_gridSteps hpos hrest

/-- Dropping digits of a number rounds it. -/
theorem rounds_roundWithAccuracy {s : Sign} {m : ℕ} {e : ℤ} (hm : 0 < m)
    (he : e ≤ gridExponent (m * 2 ^ e)) :
    Rounds s (m * 2 ^ e) (roundWithAccuracy Format.binary64 s m e .exact) := by
  have hone : (m : ℚ) / (1 : ℕ) = m := by rw [Nat.cast_one, div_one]
  have hfraction := rounds_fraction (s := s) (e := e) hm one_pos (by rwa [hone])
  rwa [hone, Nat.div_one, accuracyOfFraction_one] at hfraction

/-- Writing a number with more digits does not change it. -/
theorem decreaseExponent_value (m : ℕ) (e t : ℤ) :
    ((decreaseExponent m e t).1 : ℚ) * 2 ^ (decreaseExponent m e t).2 = m * 2 ^ e := by
  obtain ⟨k, hk⟩ : ∃ k : ℕ, (e - t).toNat = k := ⟨_, rfl⟩
  rw [decreaseExponent, hk, Nat.shiftLeft_eq]
  push_cast
  rw [zpow_sub₀ two_ne_zero, zpow_natCast]
  field_simp

/-- Rounding a number rounds it, however many digits it has. -/
theorem rounds_round {s : Sign} {m : ℕ} (hm : 0 < m) (e : ℤ) :
    Rounds s (m * 2 ^ e) (UnpackedFloat.round Format.binary64 s m e) := by
  rw [UnpackedFloat.round, targetExponent_eq hm]
  obtain ⟨m', e', hsplit⟩ : ∃ m' e',
      decreaseExponent m e (gridExponent (m * 2 ^ e)) = (m', e') := ⟨_, _, rfl⟩
  have hvalue := decreaseExponent_value m e (gridExponent (m * 2 ^ e))
  have he : e' ≤ gridExponent (m * 2 ^ e) := by
    have hexp := congrArg Prod.snd hsplit
    simp only [decreaseExponent] at hexp
    omega
  rw [hsplit] at hvalue ⊢
  have hm' : 0 < m' := by
    have hmant := congrArg Prod.fst hsplit
    simp only [decreaseExponent, Nat.shiftLeft_eq] at hmant
    rw [← hmant]
    positivity
  rw [← hvalue] at he ⊢
  exact rounds_roundWithAccuracy hm' he

/-! ## The bits of a double -/

/-- The sign is packed into the highest bit and found there. -/
theorem unpackSign_packComponents (s : Sign) (e : BitVec 11) (m : BitVec 52) :
    unpackSign (packComponents Format.binary64 s e m) = s.toBitVec := by
  change (s.toBitVec ++ e ++ m).extractLsb' 63 1 = s.toBitVec
  rw [BitVec.extractLsb'_append_eq_of_le (by decide),
    BitVec.extractLsb'_append_eq_of_le (by decide)]
  cases s <;> rfl

/-- The leading digit of a normal double is not among its bits. -/
theorem toNat_hidden (m : BitVec 52) : (1#1 ++ m).toNat = 2 ^ 52 + m.toNat := by
  have hor := Nat.two_pow_add_eq_or_of_lt m.isLt 1
  rw [mul_one] at hor
  rw [BitVec.toNat_append, Nat.shiftLeft_eq, hor]
  rfl

/-- Finite numbers with the same parts are the same. -/
theorem finite_congr {s : Sign} {m n : ℕ} {e f : ℤ} {hm : 0 < m} {hn : 0 < n} (h : m = n)
    (h' : e = f) : UnpackedFloat.finite s m e hm = .finite s n f hn := by
  subst h h'
  rfl

/-- What bits stand for, field by field. -/
theorem unpack_eq (s : Sign) (e : BitVec 11) (m : BitVec 52) {b : BitVec 64}
    (hs : @unpackSign Format.binary64 b = s.toBitVec)
    (he : @unpackExponent Format.binary64 b = e)
    (hm : @unpackMantissa Format.binary64 b = m) :
    UnpackedFloat.unpack Format.binary64 b =
      if e = -1#11 then if m = 0#52 then .infinity s else .notANumber
      else if e = 0#11 then
        if h : m = 0#52 then .zero s
        else .finite s m.toNat (-1074) (Nat.pos_of_ne_zero fun h0 => h (BitVec.eq_of_toNat_eq h0))
      else .finite s (2 ^ 52 + m.toNat) (e.toNat - 1075)
        (Nat.add_pos_left (Nat.two_pow_pos 52) m.toNat) := by
  have hsign : Sign.ofBitVec (@unpackSign Format.binary64 b) = s := by
    rw [hs]
    cases s <;> rfl
  subst he hm
  rw [← hsign]
  unfold UnpackedFloat.unpack
  by_cases hones : @unpackExponent Format.binary64 b = -1#11
  · rw [if_pos hones, if_pos hones]
  · rw [if_neg hones, if_neg hones]
    by_cases hzero : @unpackExponent Format.binary64 b = 0#11
    · rw [if_pos hzero, if_pos hzero]
      by_cases hnone : @unpackMantissa Format.binary64 b = 0#52
      · rw [dif_pos hnone, dif_pos hnone]
      · rw [dif_neg hnone, dif_neg hnone]
        refine finite_congr rfl ?_
        rw [hzero]
        rfl
    · rw [if_neg hzero, if_neg hzero]
      exact finite_congr (toNat_hidden _) rfl

/-- How the parts of a finite number are put together. -/
theorem pack_finite (s : Sign) {m : ℕ} (e : ℤ) (h : 0 < m) :
    UnpackedFloat.pack Format.binary64 (.finite s m e h) =
      if 2 ^ 11 ≤ (e + 1023 + 52).toNat + 1 then packedInfinity Format.binary64 s
      else if m.log2 + 1 = 53 then
        packComponents Format.binary64 s (BitVec.ofNat 11 (e + 1023 + 52).toNat) (BitVec.ofNat 52 m)
      else packComponents Format.binary64 s 0#11 (BitVec.ofNat 52 m) := rfl

/-- A normal double is read back as it was put together. -/
theorem unpack_normal (s : Sign) {field m : ℕ} (hfield : 0 < field) (hfield' : field < 2047)
    (hm : 2 ^ 52 ≤ m) (hm' : m < 2 ^ 53) :
    UnpackedFloat.unpack Format.binary64 (packComponents Format.binary64 s
      (BitVec.ofNat 11 field) (BitVec.ofNat 52 m))
        = .finite s m (field - 1075) ((Nat.two_pow_pos 52).trans_le hm) := by
  have hexponent : (BitVec.ofNat 11 field).toNat = field := by
    rw [BitVec.toNat_ofNat]
    omega
  have hmantissa : (BitVec.ofNat 52 m).toNat = m - 2 ^ 52 := by
    rw [BitVec.toNat_ofNat]
    omega
  have hones : BitVec.ofNat 11 field ≠ -1#11 := by
    intro heq
    have hall : (BitVec.ofNat 11 field).toNat = 2047 := congrArg BitVec.toNat heq
    omega
  have hzero : BitVec.ofNat 11 field ≠ 0#11 := by
    intro heq
    have hnone : (BitVec.ofNat 11 field).toNat = 0 := congrArg BitVec.toNat heq
    omega
  rw [unpack_eq s (BitVec.ofNat 11 field) (BitVec.ofNat 52 m)
    (unpackSign_packComponents _ _ _) unpackExponent_packComponents
    unpackMantissa_packComponents, if_neg hones, if_neg hzero]
  refine finite_congr ?_ ?_
  · rw [hmantissa]
    omega
  · rw [hexponent]

/-- So is a subnormal one. -/
theorem unpack_subnormal (s : Sign) {m : ℕ} (hm : 0 < m) (hm' : m < 2 ^ 52) :
    UnpackedFloat.unpack Format.binary64 (packComponents Format.binary64 s
      0#11 (BitVec.ofNat 52 m)) = .finite s m (-1074) hm := by
  have hmantissa : (BitVec.ofNat 52 m).toNat = m := by
    rw [BitVec.toNat_ofNat]
    omega
  have hzero : BitVec.ofNat 52 m ≠ 0#52 := by
    intro heq
    have hnone : (BitVec.ofNat 52 m).toNat = 0 := congrArg BitVec.toNat heq
    omega
  rw [unpack_eq s 0#11 (BitVec.ofNat 52 m)
    (unpackSign_packComponents _ _ _) unpackExponent_packComponents
    unpackMantissa_packComponents, if_neg (by decide), if_pos rfl, dif_neg hzero]
  exact finite_congr hmantissa rfl

theorem unpack_pack_infinity (s : Sign) : UnpackedFloat.unpack Format.binary64
    (UnpackedFloat.pack Format.binary64 (.infinity s)) = .infinity s := by
  cases s <;> rfl

theorem unpack_pack_zero (s : Sign) : UnpackedFloat.unpack Format.binary64
    (UnpackedFloat.pack Format.binary64 (.zero s)) = .zero s := by
  cases s <;> rfl

theorem unpack_pack_notANumber : UnpackedFloat.unpack Format.binary64
    (UnpackedFloat.pack Format.binary64 .notANumber) = .notANumber := rfl

/-- A canonical number that is not too large survives packing. -/
theorem unpack_pack_canonical (s : Sign) {m : ℕ} {e : ℤ} (h : Canonical m e) (he : e ≤ 971) :
    UnpackedFloat.unpack Format.binary64
      (UnpackedFloat.pack Format.binary64 (.finite s m e h.pos))
        = .finite s m e h.pos := by
  have hge := h.ge
  have hfits : ¬ 2 ^ 11 ≤ (e + 1023 + 52).toNat + 1 := by omega
  rw [pack_finite, if_neg hfits]
  by_cases hnormal : 2 ^ 52 ≤ m
  · have hlog : m.log2 = 52 := (Nat.log2_eq_iff h.pos.ne').mpr ⟨hnormal, h.lt⟩
    have hread := unpack_normal s (show 0 < (e + 1023 + 52).toNat by omega)
      (show (e + 1023 + 52).toNat < 2047 by omega) hnormal h.lt
    rw [if_pos (by omega), hread]
    exact finite_congr rfl (by omega)
  · have hstep : e = -1074 := h.full.resolve_left hnormal
    have hlog : m.log2 < 52 := (Nat.log2_lt h.pos.ne').mpr (not_le.mp hnormal)
    rw [if_neg (by omega), unpack_subnormal s h.pos (not_le.mp hnormal)]
    exact finite_congr rfl hstep.symm

/-- A number that is too large becomes infinite when it is packed. -/
theorem unpack_pack_overflow (s : Sign) {m : ℕ} {e : ℤ} (h : 0 < m) (he : 972 ≤ e) :
    UnpackedFloat.unpack Format.binary64
      (UnpackedFloat.pack Format.binary64 (.finite s m e h)) = .infinity s := by
  have hlarge : 2 ^ 11 ≤ (e + 1023 + 52).toNat + 1 := by omega
  rw [pack_finite, if_pos hlarge]
  exact unpack_pack_infinity s

theorem toBitVec_ofBitVec : ∀ b : BitVec 1, (Sign.ofBitVec b).toBitVec = b := by
  decide

/-- The parts of a double are canonical, and not too large. -/
theorem canonical_of_unpack {b : BitVec 64} {s : Sign} {m : ℕ} {e : ℤ} {h : 0 < m}
    (hb : UnpackedFloat.unpack Format.binary64 b = .finite s m e h) :
    Canonical m e ∧ e ≤ 971 := by
  have hfraction := (@unpackMantissa Format.binary64 b).isLt
  have hfield := (@unpackExponent Format.binary64 b).isLt
  change _ < 2 ^ 52 at hfraction
  change _ < 2 ^ 11 at hfield
  rw [unpack_eq (Sign.ofBitVec (@unpackSign Format.binary64 b)) _ _
    (toBitVec_ofBitVec _).symm rfl rfl] at hb
  by_cases hones : @unpackExponent Format.binary64 b = -1#11
  · rw [if_pos hones] at hb
    by_cases hzero : @unpackMantissa Format.binary64 b = 0#52
    · rw [if_pos hzero] at hb
      cases hb
    · rw [if_neg hzero] at hb
      cases hb
  · have hsmall : (@unpackExponent Format.binary64 b).toNat ≠ 2047 :=
      fun heq => hones (BitVec.eq_of_toNat_eq heq)
    rw [if_neg hones] at hb
    by_cases hnone : @unpackExponent Format.binary64 b = 0#11
    · rw [if_pos hnone] at hb
      by_cases hzero : @unpackMantissa Format.binary64 b = 0#52
      · rw [dif_pos hzero] at hb
        cases hb
      · rw [dif_neg hzero] at hb
        cases hb
        exact ⟨⟨h, by omega, le_rfl, Or.inr rfl⟩, by norm_num⟩
    · have hsome : (@unpackExponent Format.binary64 b).toNat ≠ 0 :=
        fun heq => hnone (BitVec.eq_of_toNat_eq heq)
      rw [if_neg hnone] at hb
      cases hb
      exact ⟨⟨h, by omega, by omega, Or.inl (by omega)⟩, by omega⟩

end Double

end Montage
