import Montage.Clock
import Montage.Proofs.Numbers.Exact

/-!
# Arithmetic that keeps the order of times

Rounding may move a time, but it must not let a clip end on an earlier frame
than the one it begins on.  `MonotoneScalar` collects the few laws of positive
numbers on which that rests.  They hold of rounded arithmetic and of arithmetic
that overflows, and nothing in them speaks of zero's sign or of NaN.

The consequence that everything else uses is `Clock.frame_le_frame_add`: moving
ahead by a positive time never leads to an earlier frame.
-/

namespace Montage

/-- Numbers whose operations keep the order of positive numbers. -/
class MonotoneScalar (α : Type) [Scalar α] : Prop where
  pos_of_not_le_zero {x : α} : Scalar.isFinite x = true → ¬ x ≤ 0 → 0 < x
  pos_of_pos_of_le {x y : α} : 0 < x → x ≤ y → 0 < y
  le_add_of_pos {x y : α} : 0 < x → 0 < y → x ≤ x + y
  nearest_zero_mul_whole (n : ℕ) : Scalar.nearest ((0 : α) * Scalar.whole n) = 0
  nearest_mul_whole_mono {x y : α} (n : ℕ) : 0 < x → x ≤ y →
    Scalar.nearest (x * Scalar.whole n) ≤ Scalar.nearest (y * Scalar.whole n)

namespace Clock

variable {α : Type} [Scalar α] [MonotoneScalar α]

/-- Every time that is not positive falls on the first frame. -/
theorem frame_of_not_pos (clock : Clock) {x : α} (h : ¬ 0 < x) : clock.frame x = 0 := by
  have hx : Scalar.atLeast 0 x = 0 := if_neg h
  rw [Clock.frame, Clock.ticks, hx]
  exact MonotoneScalar.nearest_zero_mul_whole _

/-- Moving ahead by a positive time never leads to an earlier frame. -/
theorem frame_le_frame_add (clock : Clock) {x y : α} (hy : 0 < y) :
    clock.frame x ≤ clock.frame (x + y) := by
  by_cases hx : 0 < x
  · have hle : x ≤ x + y := MonotoneScalar.le_add_of_pos hx hy
    have hsum : 0 < x + y := MonotoneScalar.pos_of_pos_of_le hx hle
    have hx' : Scalar.atLeast 0 x = x := if_pos hx
    have hsum' : Scalar.atLeast 0 (x + y) = x + y := if_pos hsum
    rw [Clock.frame, Clock.frame, Clock.ticks, Clock.ticks, hx', hsum']
    exact MonotoneScalar.nearest_mul_whole_mono _ hx hle
  · rw [frame_of_not_pos clock hx]
    exact Nat.zero_le _

/-- A span ends on the frame of its end. -/
theorem frame_add_span (clock : Clock) {start length : α} (h : 0 < length) :
    clock.frame start + clock.span start length = clock.frame (start + length) := by
  have hle : clock.frame start ≤ clock.frame (start + length) := frame_le_frame_add clock h
  rw [Clock.span]
  omega

end Clock

namespace Exact

/-- No count of frames passes the limit. -/
theorem frameCount_le (count : ℚ → ℕ) (x : Exact) : frameCount count x ≤ frameLimit := by
  cases x with
  | finite q => exact min_le_right _ _
  | infinite s =>
      cases s with
      | true => exact Nat.zero_le _
      | false => exact le_rfl
  | nan => exact Nat.zero_le _

/-- A conversion to frame counts that keeps the order of rational numbers keeps the order of
all numbers. -/
theorem frameCount_mono {count : ℚ → ℕ} (hcount : Monotone count) {x y : Exact} (h : x ≤ y) :
    frameCount count x ≤ frameCount count y := by
  cases x with
  | finite p =>
      cases y with
      | finite q => exact min_le_min_right _ (hcount (finite_le_finite.mp h))
      | infinite t =>
          obtain rfl : t = false := finite_le_infinite.mp h
          exact frameCount_le count _
      | nan => exact absurd h (not_le_nan _)
  | infinite s =>
      cases s with
      | true => exact Nat.zero_le _
      | false =>
          cases y with
          | finite q => exact absurd h (by simp)
          | infinite t =>
              obtain rfl : t = false := by simpa using h
              exact le_rfl
          | nan => exact absurd h (not_le_nan _)
  | nan => exact Nat.zero_le _

theorem nearest_mono {x y : Exact} (h : x ≤ y) : Scalar.nearest x ≤ Scalar.nearest y :=
  frameCount_mono (fun _ _ hpq => Nat.floor_mono (by linarith)) h

theorem ceiling_mono {x y : Exact} (h : x ≤ y) : Scalar.ceiling x ≤ Scalar.ceiling y :=
  frameCount_mono Nat.ceil_mono h

/-- What is not positive falls on the first frame. -/
theorem nearest_of_not_pos {x : Exact} (h : ¬ 0 < x) : Scalar.nearest x = 0 := by
  cases x with
  | finite q =>
      have hq : ¬ 0 < q := by simpa using h
      have hfloor : ⌊q + 1 / 2⌋₊ = 0 := Nat.floor_eq_zero.mpr (by linarith)
      rw [Exact.nearest_finite, hfloor, Nat.zero_min]
  | infinite s =>
      cases s with
      | true => rfl
      | false => exact absurd (by decide) h
  | nan => rfl

/-- What is not below a positive number is positive. -/
theorem pos_of_pos_of_le {x y : Exact} (hx : 0 < x) (h : x ≤ y) : 0 < y := by
  rcases pos_iff.mp hx with ⟨p, hp, rfl⟩ | rfl
  · cases y with
    | finite q => exact finite_lt_finite.mpr (by simpa using hp.trans_le (finite_le_finite.mp h))
    | infinite t => exact finite_lt_infinite.mpr (finite_le_infinite.mp h)
    | nan => exact absurd h (not_le_nan _)
  · cases y with
    | finite q => exact absurd h (by simp)
    | infinite t => exact finite_lt_infinite.mpr (by simpa using h)
    | nan => exact absurd h (not_le_nan _)

/-- A sum with a positive number is not smaller. -/
theorem le_add_of_pos {x y : Exact} (hx : 0 < x) (hy : 0 < y) : x ≤ x + y := by
  rcases pos_iff.mp hx with ⟨p, hp, rfl⟩ | rfl
  · rcases pos_iff.mp hy with ⟨q, hq, rfl⟩ | rfl
    · rw [finite_add_finite, finite_le_finite]
      linarith
    · exact finite_le_infinite.mpr rfl
  · rcases pos_iff.mp hy with ⟨q, hq, rfl⟩ | rfl
    · exact infinite_le_infinite.mpr (Or.inr rfl)
    · exact infinite_le_infinite.mpr (Or.inr rfl)

/-- Infinity times a positive number is infinity. -/
theorem infinite_mul_finite {q : ℚ} (hq : 0 < q) :
    infinite false * finite q = infinite false := by
  change (if q = 0 then nan else infinite (false != decide (q < 0))) = _
  simp [hq.ne', hq.le]

/-- A positive number times infinity is infinity. -/
theorem finite_mul_infinite {q : ℚ} (hq : 0 < q) :
    finite q * infinite false = infinite false := by
  change (if q = 0 then nan else infinite (false != decide (q < 0))) = _
  simp [hq.ne', hq.le]

/-- Positive numbers have a positive product. -/
theorem pos_mul_pos {x y : Exact} (hx : 0 < x) (hy : 0 < y) : 0 < x * y := by
  rcases pos_iff.mp hx with ⟨p, hp, rfl⟩ | rfl
  · rcases pos_iff.mp hy with ⟨q, hq, rfl⟩ | rfl
    · rw [finite_mul_finite]
      exact pos_iff.mpr (Or.inl ⟨p * q, mul_pos hp hq, rfl⟩)
    · rw [finite_mul_infinite hp]
      exact hy
  · rcases pos_iff.mp hy with ⟨q, hq, rfl⟩ | rfl
    · rw [infinite_mul_finite hq]
      exact hx
    · exact hx

/-- Scaling by a positive number keeps the order of positive numbers. -/
theorem mul_mono {x y c : Exact} (hc : 0 < c) (hx : 0 < x) (h : x ≤ y) : x * c ≤ y * c := by
  have hy : 0 < y := pos_of_pos_of_le hx h
  rcases pos_iff.mp hc with ⟨r, hr, rfl⟩ | rfl
  · rcases pos_iff.mp hx with ⟨p, hp, rfl⟩ | rfl
    · rcases pos_iff.mp hy with ⟨q, hq, rfl⟩ | rfl
      · have hpq : p ≤ q := finite_le_finite.mp h
        rw [finite_mul_finite, finite_mul_finite, finite_le_finite]
        exact mul_le_mul_of_nonneg_right hpq hr.le
      · rw [infinite_mul_finite hr, finite_mul_finite, finite_le_infinite]
    · rcases pos_iff.mp hy with ⟨q, hq, rfl⟩ | rfl
      · exact absurd h (by simp)
      · rw [infinite_mul_finite hr]
        exact infinite_le_infinite.mpr (Or.inr rfl)
  · have hall : ∀ {z : Exact}, 0 < z → z * infinite false = infinite false := by
      intro z hz
      rcases pos_iff.mp hz with ⟨q, hq, rfl⟩ | rfl
      · exact finite_mul_infinite hq
      · rfl
    rw [hall hx, hall hy, infinite_le_infinite]
    exact Or.inr rfl

/-- A positive number times zero frames per second is no frame. -/
theorem nearest_mul_whole_zero {x : Exact} (hx : 0 < x) :
    Scalar.nearest (x * Scalar.whole 0) = 0 := by
  rcases pos_iff.mp hx with ⟨p, hp, rfl⟩ | rfl
  · have hzero : ⌊p * ((0 : ℕ) : ℚ) + 1 / 2⌋₊ = 0 := by norm_num
    rw [whole_eq, finite_mul_finite, nearest_finite, hzero, Nat.zero_min]
  · rfl

instance : MonotoneScalar Exact where
  pos_of_not_le_zero {x} hfin h := by
    obtain ⟨q, rfl⟩ := isFinite_iff.mp hfin
    have hq : ¬ q ≤ 0 := by simpa using h
    simpa using hq
  pos_of_pos_of_le := pos_of_pos_of_le
  le_add_of_pos := le_add_of_pos
  nearest_zero_mul_whole n := by
    have hzero : ⌊((0 : ℕ) : ℚ) * n + 1 / 2⌋₊ = 0 := by norm_num
    rw [ofNat_eq, whole_eq, finite_mul_finite, nearest_finite, hzero, Nat.zero_min]
  nearest_mul_whole_mono {x y} n hx h := by
    rcases Nat.eq_zero_or_pos n with rfl | hn
    · rw [nearest_mul_whole_zero hx]
      exact Nat.zero_le _
    · refine nearest_mono (mul_mono ?_ hx h)
      rw [whole_eq, ofNat_eq, finite_lt_finite, Nat.cast_zero]
      exact Nat.cast_pos.mpr hn

end Exact

end Montage
