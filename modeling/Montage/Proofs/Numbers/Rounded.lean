import Montage.Proofs.Numbers.Parts
import Montage.Proofs.Numbers.Spacing

/-!
# Numbers that are rounded after every step

Exact numbers and doubles are alike in this: a number stands for an exact one, sums and
differences are those of the exact numbers brought to some grid, and comparisons are those
of the exact numbers.  `RoundedScalar` collects what that takes.  Exact arithmetic is the
case in which nothing is rounded.

Two of the laws say how far a difference may be off, in either direction.  They are what
makes a proof about times go through with and without rounding.
-/

namespace Montage

/-- Numbers that stand for exact ones and are brought to a grid after every step. -/
class RoundedScalar (α : Type) [Scalar α] where
  /-- The number that it stands for. -/
  toExact : α → Exact
  /-- Where an exact number is brought. -/
  closest : Exact → Exact
  toExact_zero : toExact 0 = .finite 0
  toExact_add (x y : α) : toExact (x + y) = closest (toExact x + toExact y)
  toExact_sub (x y : α) : toExact (x - y) = closest (toExact x - toExact y)
  lt_iff {x y : α} : x < y ↔ toExact x < toExact y
  le_iff {x y : α} : x ≤ y ↔ toExact x ≤ toExact y
  beq_iff {x y : α} : (x == y) = true ↔ toExact x = toExact y ∧ toExact y ≠ .nan
  isFinite_toExact (x : α) : Scalar.isFinite x = Scalar.isFinite (toExact x)
  isNaN_toExact (x : α) : Scalar.isNaN x = Scalar.isNaN (toExact x)
  /-- Zeros may differ in sign, other numbers differ in value. -/
  eq_of_toExact {x y : α} {q : ℚ} :
    0 < q → toExact x = .finite q → toExact y = .finite q → x = y
  closest_toExact (x : α) : closest (toExact x) = toExact x
  closest_mono {x y : Exact} : x ≤ y → closest x ≤ closest y
  finite_of_closest {x : Exact} {r : ℚ} : closest x = .finite r → ∃ q : ℚ, x = .finite q
  /-- What is taken away counts twice at most. -/
  sub_two_mul_le {v t : ℚ} : closest (.finite v) = .finite v → 0 ≤ t → t ≤ v →
    .finite (v - 2 * t) ≤ closest (.finite (v - t))
  /-- Adding again what was taken away leads no farther than to the next number. -/
  sub_add_le {v w t z : ℚ} : closest (.finite v) = .finite v → closest (.finite w) = .finite w →
    v < w → 0 ≤ t → t ≤ v → closest (.finite (v - t)) = .finite z → z + t ≤ w

/-- Numbers are equal for the program when they are the same and no NaN. -/
theorem Exact.beq_iff {x y : Exact} : (x == y) = true ↔ x = y ∧ y ≠ .nan := by
  by_cases hx : x = .nan
  · subst hx
    constructor
    · intro h
      cases h
    · rintro ⟨rfl, hne⟩
      exact absurd rfl hne
  · have hbeq : (x == y) = decide (x = y) := by
      cases x with
      | finite p => rfl
      | infinite s => rfl
      | nan => exact absurd rfl hx
    rw [hbeq, decide_eq_true_iff]
    constructor
    · rintro rfl
      exact ⟨rfl, hx⟩
    · exact And.left

instance : RoundedScalar Exact where
  toExact x := x
  closest x := x
  toExact_zero := rfl
  toExact_add x y := rfl
  toExact_sub x y := rfl
  lt_iff := Iff.rfl
  le_iff := Iff.rfl
  beq_iff := Exact.beq_iff
  isFinite_toExact x := rfl
  isNaN_toExact x := rfl
  eq_of_toExact _ hx hy := hx.trans hy.symm
  closest_toExact x := rfl
  closest_mono h := h
  finite_of_closest h := ⟨_, h⟩
  sub_two_mul_le _ ht _ := Exact.finite_le_finite.mpr (by linarith)
  sub_add_le _ _ hvw _ _ hz := by
    obtain rfl := Exact.finite.inj hz
    linarith

namespace Double

/-- A double is NaN when it stands for no number. -/
theorem isNaN_exact (x : Float) : Scalar.isNaN x = Scalar.isNaN (exact x) := by
  change x.toModel.unpack.isNaN = decide (value x.toModel.unpack = .nan)
  cases x.toModel.unpack with
  | infinity s => cases s <;> rfl
  | notANumber => rfl
  | zero s => rfl
  | finite s m e hm => cases s <;> rfl

/-- Doubles that stand for one positive number are the same. -/
theorem eq_of_exact {x y : Float} {q : ℚ} (hq : 0 < q) (hx : exact x = .finite q)
    (hy : exact y = .finite q) : x = y := by
  have hfinite : Scalar.isFinite x = true := by
    rw [isFinite_exact, hx]
    rfl
  obtain ⟨p, hp⟩ := Binary64.exists_ofFloat? hfinite
  obtain ⟨hsettled, hexact⟩ := Binary64.exact_of_ofFloat? hp
  have hpos : 0 < p.significand := by
    rw [Nat.pos_iff_ne_zero]
    intro hzero
    have hvalue : p.value = 0 := by rw [Binary64.value, hzero, Nat.cast_zero, zero_mul]
    rw [hx, Binary64.exact, hvalue, neg_zero, ite_self] at hexact
    exact hq.ne' (Exact.finite.inj hexact)
  have hq' := Binary64.ofFloat?_of_exact hsettled hpos (hy.trans (hx.symm.trans hexact))
  exact Binary64.ofFloat?_inj hp hq'

end Double

instance : RoundedScalar Float where
  toExact := Double.exact
  closest := Double.closest
  toExact_zero := Double.exact_zero
  toExact_add := Double.exact_sum
  toExact_sub := Double.exact_difference
  lt_iff := Double.lt_iff
  le_iff := Double.le_iff
  beq_iff := Double.beq_iff
  isFinite_toExact := Double.isFinite_exact
  isNaN_toExact := Double.isNaN_exact
  eq_of_toExact := Double.eq_of_exact
  closest_toExact := Double.closest_exact
  closest_mono := Double.closest_mono
  finite_of_closest := Double.finite_of_closest
  sub_two_mul_le := Double.sub_two_mul_le_nearby
  sub_add_le := Double.nearby_sub_add_le

namespace RoundedScalar

variable {α : Type} [Scalar α] [RoundedScalar α] {x y : α} {p q : ℚ}

/-- A sum stays above what is no more than the exact sum. -/
theorem le_toExact_add {z : α} (h : toExact z ≤ toExact x + toExact y) :
    toExact z ≤ toExact (x + y) := by
  have hrounded := closest_mono (α := α) h
  rwa [closest_toExact, ← toExact_add] at hrounded

/-- A difference stays below what is no less than the exact difference. -/
theorem toExact_sub_le {z : α} (h : toExact x - toExact y ≤ toExact z) :
    toExact (x - y) ≤ toExact z := by
  have hrounded := closest_mono (α := α) h
  rwa [closest_toExact, ← toExact_sub] at hrounded

/-- The larger of two numbers is the larger of what they stand for. -/
theorem toExact_atLeast (low x : α) :
    toExact (Scalar.atLeast low x) = Scalar.atLeast (toExact low) (toExact x) := by
  unfold Scalar.atLeast
  by_cases h : low < x
  · rw [if_pos h, if_pos (lt_iff.mp h)]
  · rw [if_neg h, if_neg (fun hlt => h (lt_iff.mpr hlt))]

/-- What is moved up to a time, and is not above another, is a time between the two. -/
theorem exists_atLeast {low : α} (hlow : toExact low = .finite p) (hy : ¬ .finite q < toExact y) :
    ∃ r, p ≤ r ∧ r ≤ max p q ∧ toExact (Scalar.atLeast low y) = .finite r := by
  rw [toExact_atLeast, hlow]
  cases hvalue : toExact y with
  | finite r =>
      rw [hvalue, Exact.finite_lt_finite, not_lt] at hy
      exact ⟨max p r, le_max_left p r, max_le_max_left p hy, Exact.atLeast_finite p r⟩
  | infinite s =>
      cases s with
      | true => exact ⟨p, le_rfl, le_max_left p q, Exact.atLeast_infinite p true⟩
      | false =>
          rw [hvalue] at hy
          exact absurd (Exact.finite_lt_infinite.mpr rfl) hy
  | nan => exact ⟨p, le_rfl, le_max_left p q, Exact.atLeast_nan _⟩

/-- What is not above a bound is raised to it. -/
theorem atLeast_of_le {low : α} (hlow : toExact low = .finite p) (hx : toExact x ≤ .finite p) :
    Scalar.atLeast low x = low := by
  have hnot : ¬ low < x := by
    rw [lt_iff, hlow]
    exact Exact.not_lt_of_le hx
  rw [Scalar.atLeast, if_neg hnot]

/-- What ends up above zero has not been moved up to it. -/
theorem toExact_of_atLeast_pos (hp : 0 < p) (h : toExact (Scalar.atLeast 0 x) = .finite p) :
    toExact x = .finite p := by
  unfold Scalar.atLeast at h
  by_cases hpos : 0 < x
  · rwa [if_pos hpos] at h
  · rw [if_neg hpos, toExact_zero] at h
    exact absurd (Exact.finite.inj h) hp.ne

/-- Numbers that are moved up to one and the same, and end up equal, are moved to one and
the same number, zeros included. -/
theorem atLeast_eq {low z : α} {r : ℚ} (hlow : toExact low = .finite p) (hp : 0 ≤ p)
    (hy : toExact (Scalar.atLeast low y) = .finite r) (hz : toExact z = .finite r) :
    Scalar.atLeast low y = Scalar.atLeast low z := by
  unfold Scalar.atLeast at hy ⊢
  by_cases habove : low < y
  · rw [if_pos habove] at hy ⊢
    have hpr : p < r := by
      rwa [lt_iff, hlow, hy, Exact.finite_lt_finite] at habove
    have hz' : low < z := by rwa [lt_iff, hlow, hz, Exact.finite_lt_finite]
    rw [if_pos hz']
    exact eq_of_toExact (hp.trans_lt hpr) hy hz
  · rw [if_neg habove] at hy ⊢
    have hz' : ¬ low < z := by
      rw [lt_iff, hy, hz, Exact.finite_lt_finite]
      exact lt_irrefl r
    rw [if_neg hz']

theorem closest_of_toExact (hx : toExact x = .finite q) : closest α (.finite q) = .finite q := by
  rw [← hx, closest_toExact]

end RoundedScalar

end Montage
