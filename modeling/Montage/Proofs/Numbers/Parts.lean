import Montage.Proofs.Numbers.DoubleLaws
import Montage.Proofs.Numbers.Signed

/-!
# The parts of a double

A finite double is its parts: `Binary64.ofFloat?` gives them, they are `Settled`, which
leaves one way to write each number, and there is one double with given parts
(`ofFloat?_inj`).  So a double that stands for a number with settled parts has these
parts (`ofFloat?_of_exact`).
-/

namespace Montage

open Float.Model Float.Model.UnpackedFloat

namespace Binary64

/-- The magnitude that parts stand for. -/
def value (p : Binary64) : ℚ := p.significand * 2 ^ p.exponent

/-- The number that parts stand for. -/
def exact (p : Binary64) : Exact := .finite (if p.negative then -p.value else p.value)

/-- Parts in the one form in which doubles have them. -/
structure Settled (p : Binary64) : Prop where
  lt : p.significand < 2 ^ 53
  ge : -1074 ≤ p.exponent
  le : p.exponent ≤ 971
  full : 2 ^ 52 ≤ p.significand ∨ p.exponent = -1074

theorem Settled.canonical {p : Binary64} (h : p.Settled) (hpos : 0 < p.significand) :
    Double.Canonical p.significand p.exponent :=
  ⟨hpos, h.lt, h.ge, h.full⟩

/-- A double with parts stands for what they stand for. -/
theorem exact_of_ofFloat? {x : Float} {p : Binary64} (h : ofFloat? x = some p) :
    p.Settled ∧ Double.exact x = p.exact := by
  obtain ⟨s, hs⟩ : ∃ s : Sign, @unpackSign Format.binary64 x.toModel.toBits.toBitVec
      = s.toBitVec := ⟨_, (Double.toBitVec_ofBitVec _).symm⟩
  obtain ⟨e, he⟩ : ∃ e, @unpackExponent Format.binary64 x.toModel.toBits.toBitVec = e := ⟨_, rfl⟩
  obtain ⟨m, hm⟩ : ∃ m, @unpackMantissa Format.binary64 x.toModel.toBits.toBitVec = m := ⟨_, rfl⟩
  have hfield : e.toNat < 2 ^ 11 := e.isLt
  have hfraction : m.toNat < 2 ^ 52 := m.isLt
  have hunpack : x.toModel.unpack = _ := Double.unpack_eq s e m hs he hm
  rw [Double.ofFloat?_eq x hs he hm] at h
  -- the exponent field tells special, subnormal and normal doubles apart
  by_cases hones : e = -1#11
  · rw [if_pos hones] at h
    cases h
  · have hsmall : e.toNat ≠ 2047 := fun heq => hones (BitVec.eq_of_toNat_eq heq)
    rw [if_neg hones] at h hunpack
    by_cases hzero : e = 0#11
    · rw [if_pos hzero] at h hunpack
      cases h
      refine ⟨⟨by simpa using hfraction.trans (by norm_num), le_rfl, by norm_num, Or.inr rfl⟩, ?_⟩
      by_cases hnone : m = 0#52
      · rw [dif_pos hnone] at hunpack
        rw [Double.exact, hunpack, hnone]
        change Exact.finite 0 = _
        cases s <;> simp [exact, value]
      · rw [dif_neg hnone] at hunpack
        rw [Double.exact, hunpack]
        cases s <;> rfl
    · have hsome : e.toNat ≠ 0 := fun heq => hzero (BitVec.eq_of_toNat_eq heq)
      rw [if_neg hzero] at h hunpack
      cases h
      refine ⟨⟨?_, ?_, ?_, Or.inl ?_⟩, ?_⟩
      · change m.toNat + 2 ^ 52 < 2 ^ 53
        omega
      · change (-1074 : ℤ) ≤ e.toNat - 1075
        omega
      · change (e.toNat - 1075 : ℤ) ≤ 971
        omega
      · change 2 ^ 52 ≤ m.toNat + 2 ^ 52
        omega
      · have hvalue : Double.exact x = Double.signed s
            (.finite ((m.toNat + 2 ^ 52 : ℕ) * 2 ^ (e.toNat - 1075 : ℤ))) := by
          rw [Double.exact, hunpack, Nat.add_comm m.toNat]
          rfl
        rw [hvalue]
        cases s <;> rfl

/-- Every finite double has parts. -/
theorem exists_ofFloat? {x : Float} (h : Scalar.isFinite x = true) : ∃ p, ofFloat? x = some p := by
  obtain ⟨s, hs⟩ : ∃ s : Sign, @unpackSign Format.binary64 x.toModel.toBits.toBitVec
      = s.toBitVec := ⟨_, (Double.toBitVec_ofBitVec _).symm⟩
  obtain ⟨e, he⟩ : ∃ e, @unpackExponent Format.binary64 x.toModel.toBits.toBitVec = e := ⟨_, rfl⟩
  obtain ⟨m, hm⟩ : ∃ m, @unpackMantissa Format.binary64 x.toModel.toBits.toBitVec = m := ⟨_, rfl⟩
  have hunpack : x.toModel.unpack = _ := Double.unpack_eq s e m hs he hm
  rw [Double.ofFloat?_eq x hs he hm]
  by_cases hones : e = -1#11
  · rw [if_pos hones] at hunpack
    change x.toModel.unpack.isFinite = true at h
    rw [hunpack] at h
    by_cases hzero : m = 0#52
    · rw [if_pos hzero] at h
      cases h
    · rw [if_neg hzero] at h
      cases h
  · rw [if_neg hones]
    by_cases hzero : e = 0#11
    · exact ⟨_, if_pos hzero⟩
    · exact ⟨_, if_neg hzero⟩

/-- The bits of a double, from its parts. -/
theorem toBits_of_ofFloat? {x : Float} {p : Binary64} (h : ofFloat? x = some p) :
    x.toBits.toNat = (if p.negative then 2 ^ 63 else 0) +
      (if p.significand < 2 ^ 52 then p.significand
        else (p.exponent + 1075).toNat * 2 ^ 52 + (p.significand - 2 ^ 52)) := by
  have hbits : x.toBits.toNat < 2 ^ 64 := x.toBits.toNat_lt
  obtain ⟨b, hb⟩ : ∃ b, x.toBits.toNat = b := ⟨_, rfl⟩
  rw [hb] at hbits ⊢
  have hparts : (if b / 2 ^ 52 % 2 ^ 11 = 2047 then none
      else if b / 2 ^ 52 % 2 ^ 11 = 0 then
        some (Binary64.mk (decide (2 ^ 63 ≤ b)) (b % 2 ^ 52) (-1074))
      else some (Binary64.mk (decide (2 ^ 63 ≤ b)) (b % 2 ^ 52 + 2 ^ 52)
        ((b / 2 ^ 52 % 2 ^ 11 : ℕ) - 1075))) = some p := by
    rw [← hb]
    exact h
  by_cases hones : b / 2 ^ 52 % 2 ^ 11 = 2047
  · rw [if_pos hones] at hparts
    cases hparts
  · rw [if_neg hones] at hparts
    by_cases hzero : b / 2 ^ 52 % 2 ^ 11 = 0
    · rw [if_pos hzero] at hparts
      obtain rfl := Option.some.inj hparts
      simp only [decide_eq_true_eq]
      rw [if_pos (by omega : b % 2 ^ 52 < 2 ^ 52)]
      by_cases hsign : 2 ^ 63 ≤ b
      · rw [if_pos hsign]
        omega
      · rw [if_neg hsign]
        omega
    · rw [if_neg hzero] at hparts
      obtain rfl := Option.some.inj hparts
      simp only [decide_eq_true_eq]
      rw [if_neg (by omega : ¬ b % 2 ^ 52 + 2 ^ 52 < 2 ^ 52)]
      by_cases hsign : 2 ^ 63 ≤ b
      · rw [if_pos hsign]
        omega
      · rw [if_neg hsign]
        omega

/-- Doubles with the same parts are the same. -/
theorem ofFloat?_inj {x y : Float} {p : Binary64} (hx : ofFloat? x = some p)
    (hy : ofFloat? y = some p) : x = y := by
  have hbits : x.toModel.toBits = y.toModel.toBits :=
    UInt64.toNat_inj.mp ((toBits_of_ofFloat? hx).trans (toBits_of_ofFloat? hy).symm)
  obtain ⟨⟨b, hb⟩⟩ := x
  obtain ⟨⟨c, hc⟩⟩ := y
  obtain rfl : b = c := hbits
  rfl

theorem value_nonneg (p : Binary64) : 0 ≤ p.value := mul_zpow_nonneg _ _

theorem value_pos {p : Binary64} (h : 0 < p.significand) : 0 < p.value := mul_zpow_pos h _

/-- A magnitude, from an equation between whole numbers. -/
theorem value_eq_of_mul (p : Binary64) {n : ℕ}
    (h : p.significand * 2 ^ p.exponent.toNat = n * 2 ^ (-p.exponent).toNat) : p.value = n := by
  have hcast : (p.significand : ℚ) * 2 ^ p.exponent.toNat = n * 2 ^ (-p.exponent).toNat := by
    exact_mod_cast h
  rcases le_total 0 p.exponent with hnonneg | hneg
  · obtain ⟨k, hk⟩ := Int.eq_ofNat_of_zero_le hnonneg
    have hdown : (-p.exponent).toNat = 0 := by omega
    have hup : p.exponent.toNat = k := by omega
    rw [hdown, hup, pow_zero, mul_one] at hcast
    rw [value, hk, zpow_natCast, hcast]
  · obtain ⟨k, hk⟩ : ∃ k : ℕ, p.exponent = -k := ⟨(-p.exponent).toNat, by omega⟩
    have hdown : (-p.exponent).toNat = k := by omega
    have hup : p.exponent.toNat = 0 := by omega
    rw [hdown, hup, pow_zero, mul_one] at hcast
    rw [value, hk, hcast, zpow_neg, zpow_natCast, mul_assoc, mul_inv_cancel₀ (by positivity),
      mul_one]

/-- A magnitude other than zero has one settled form. -/
theorem Settled.eq_of_value {p q : Binary64} (hp : p.Settled) (hq : q.Settled)
    (hpos : 0 < p.significand) (h : p.value = q.value) :
    p.significand = q.significand ∧ p.exponent = q.exponent := by
  have hqpos : 0 < q.significand := by
    rw [Nat.pos_iff_ne_zero]
    intro hzero
    have hq0 : q.value = 0 := by rw [value, hzero, Nat.cast_zero, zero_mul]
    exact (value_pos hpos).ne' (h.trans hq0)
  have hcompare := Double.then_compare (hp.canonical hpos) (hq.canonical hqpos)
  unfold value at h
  rw [compare_eq_iff_eq.mpr h, Ordering.then_eq_eq, compare_eq_iff_eq, compare_eq_iff_eq]
    at hcompare
  exact ⟨hcompare.2, hcompare.1⟩

/-- A number other than zero has one settled form. -/
theorem Settled.eq_of_exact {p q : Binary64} (hp : p.Settled) (hq : q.Settled)
    (hpos : 0 < p.significand) (h : p.exact = q.exact) : p = q := by
  have hppos := value_pos hpos
  have hqnonneg := q.value_nonneg
  have hnumbers := Exact.finite.inj h
  have hsigned : p.negative = q.negative ∧ p.value = q.value := by
    cases hpn : p.negative with
    | false =>
        cases hqn : q.negative with
        | false => exact ⟨rfl, by simpa [hpn, hqn] using hnumbers⟩
        | true =>
            simp only [hpn, hqn, Bool.false_eq_true, ↓reduceIte] at hnumbers
            linarith
    | true =>
        cases hqn : q.negative with
        | false =>
            simp only [hpn, hqn, Bool.false_eq_true, ↓reduceIte] at hnumbers
            linarith
        | true => exact ⟨rfl, by simpa [hpn, hqn] using hnumbers⟩
  obtain ⟨hsignificand, hexponent⟩ := hp.eq_of_value hq hpos hsigned.2
  cases p
  cases q
  simp_all

/-- A double that stands for settled parts, other than zero, has these parts. -/
theorem ofFloat?_of_exact {x : Float} {p : Binary64} (hp : p.Settled) (hpos : 0 < p.significand)
    (h : Double.exact x = p.exact) : ofFloat? x = some p := by
  have hfinite : Scalar.isFinite x = true := by
    rw [Double.isFinite_exact, h]
    rfl
  obtain ⟨q, hq⟩ := exists_ofFloat? hfinite
  obtain ⟨hsettled, hexact⟩ := exact_of_ofFloat? hq
  rw [hq, hp.eq_of_exact hsettled hpos (h.symm.trans hexact)]

end Binary64

end Montage
