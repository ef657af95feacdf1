import Mathlib.Order.Bounds.Defs
import Montage.Proofs.Clock
import Montage.Proofs.Numbers.Signed

/-!
# Between times and frames

A clock leads from times to frames in two ways, by the nearest frame and by the frames that
cover a time, and from frames back to times in one.  All of it rests on the ticks of a time,
its frames before rounding: they are never negative and never NaN, whatever the time is, and
they keep the order of times (`ticks_mono`).  Rounding keeps that order.

A frame that is turned into a time comes back from it in both ways.  A time that is turned
into a frame comes back within half a frame, as long as frames can count that far.
-/

namespace Montage

namespace Clock

variable (clock : Clock)

/-! ## Ticks of all times -/

theorem rate_pos : (0 : Exact) < Scalar.whole clock.fps := by
  rw [Exact.whole_eq, Exact.ofNat_eq, Exact.finite_lt_finite, Nat.cast_zero]
  exact clock.cast_fps_pos

theorem ticks_of_pos {t : Exact} (h : 0 < t) : clock.ticks t = t * Scalar.whole clock.fps := by
  rw [ticks, Scalar.atLeast, if_pos h]

/-- A time that is not positive has no ticks; NaN is such a time. -/
theorem ticks_of_not_pos {t : Exact} (h : ¬ 0 < t) : clock.ticks t = .finite 0 := by
  rw [ticks, Scalar.atLeast, if_neg h, Exact.ofNat_eq, Exact.whole_eq, Exact.finite_mul_finite,
    Nat.cast_zero, zero_mul]

/-- No time has negative ticks, NaN not either. -/
theorem ticks_nonneg (t : Exact) : .finite 0 ≤ clock.ticks t := by
  by_cases ht : 0 < t
  · rw [clock.ticks_of_pos ht]
    rcases Exact.pos_iff.mp (Exact.pos_mul_pos ht clock.rate_pos) with ⟨q, hq, h⟩ | h
    · rw [h]
      exact Exact.finite_le_finite.mpr hq.le
    · rw [h]
      exact Exact.finite_le_infinite.mpr rfl
  · rw [clock.ticks_of_not_pos ht]
    exact Exact.finite_le_finite.mpr le_rfl

/-- Ticks grow with the time, over all numbers that can be compared. -/
theorem ticks_mono {s t : Exact} (h : s ≤ t) : clock.ticks s ≤ clock.ticks t := by
  by_cases hs : 0 < s
  · have ht : 0 < t := Exact.pos_of_pos_of_le hs h
    rw [clock.ticks_of_pos hs, clock.ticks_of_pos ht]
    exact Exact.mul_mono clock.rate_pos hs h
  · rw [clock.ticks_of_not_pos hs]
    exact clock.ticks_nonneg t

theorem ticks_endless : clock.ticks (Exact.infinite false) = .infinite false := by
  rw [clock.ticks_of_pos (by simp), Exact.whole_eq, Exact.infinite_mul_finite clock.cast_fps_pos]

/-! ## Frames of all times -/

theorem frame_mono {s t : Exact} (h : s ≤ t) : clock.frame s ≤ clock.frame t :=
  Exact.nearest_mono (clock.ticks_mono h)

/-- The covering frame grows with the time. -/
theorem covering_mono {s t : Exact} (h : s ≤ t) : clock.covering s ≤ clock.covering t := by
  rw [covering_eq, covering_eq]
  refine Exact.ceiling_mono ?_
  rw [Exact.sub_eq_add_neg, Exact.sub_eq_add_neg, Exact.neg_finite]
  exact Exact.add_le_add_right (clock.ticks_mono h) _

/-- A time that is not positive is covered by no frames. -/
theorem covering_of_not_pos {t : Exact} (h : ¬ 0 < t) : clock.covering t = 0 := by
  have hceil : ⌈(0 : ℚ) - 1 / 10 ^ 9⌉₊ = 0 := Nat.ceil_eq_zero.mpr (by norm_num)
  rw [covering_eq, clock.ticks_of_not_pos h, Exact.finite_sub_finite, Exact.ceiling_finite, hceil,
    Nat.zero_min]

/-- No frame lies beyond the last one that can be counted. -/
theorem frame_le_frameLimit (t : Exact) : clock.frame t ≤ frameLimit := Exact.frameCount_le _ _

theorem frame_endless : clock.frame (Exact.infinite false) = frameLimit := by
  rw [frame, ticks_endless]
  rfl

theorem covering_endless : clock.covering (Exact.infinite false) = frameLimit := by
  rw [covering_eq, ticks_endless, Exact.infinite_sub_finite]
  rfl

/-- At every time the two conversions differ by a frame at most. -/
theorem frame_le_covering_le (t : Exact) :
    clock.frame t ≤ clock.covering t ∧ clock.covering t ≤ clock.frame t + 1 := by
  by_cases ht : 0 < t
  · rcases Exact.pos_iff.mp ht with ⟨q, -, rfl⟩ | rfl
    · rw [frame_finite, covering_finite]
      exact ⟨clock.frameAt_le_coveringAt q, clock.coveringAt_le_frameAt_succ q⟩
    · rw [frame_endless, covering_endless]
      exact ⟨le_rfl, Nat.le_succ _⟩
  · rw [clock.covering_of_not_pos ht, clock.frame_of_not_pos ht]
    exact ⟨le_rfl, Nat.zero_le _⟩

/-! ## There and back -/

/-- The time of a frame is its number divided by the rate. -/
theorem seconds_eq (n : ℕ) : (clock.seconds n : Exact) = .finite (n / clock.fps) := by
  rw [seconds, Exact.whole_eq, Exact.whole_eq, Exact.finite_div_finite clock.cast_fps_pos.ne']

/-- The time of a frame lasts for as many ticks as there are frames. -/
theorem ticksAt_seconds (n : ℕ) : clock.ticksAt (n / clock.fps) = n := by
  have hnonneg : (0 : ℚ) ≤ n / clock.fps := by positivity
  rw [clock.ticksAt_of_nonneg hnonneg, div_mul_cancel₀ _ clock.cast_fps_pos.ne']

/-- A frame is the nearest to its own time, up to the last one. -/
theorem frame_seconds {n : ℕ} (h : n ≤ frameLimit) : clock.frame (clock.seconds n : Exact) = n := by
  have hfloor : ⌊(n : ℚ) + 1 / 2⌋₊ = n := by
    rw [Nat.floor_eq_iff (by positivity)]
    constructor <;> linarith
  rw [seconds_eq, frame_finite, frameAt, ticksAt_seconds, hfloor, Nat.min_eq_left h]

/-- The time of a frame is covered by the frames in front of it. -/
theorem covering_seconds {n : ℕ} (h : n ≤ frameLimit) :
    clock.covering (clock.seconds n : Exact) = n := by
  have hceil : ⌈(n : ℚ) - 1 / 10 ^ 9⌉₊ = n := by
    refine le_antisymm (Nat.ceil_le.mpr (by linarith)) (Nat.le_of_lt_succ ?_)
    -- One frame less does not cover the time: it would fall short by more than the tolerance.
    have hle := Nat.le_ceil ((n : ℚ) - 1 / 10 ^ 9)
    have hlt : (n : ℚ) < (⌈(n : ℚ) - 1 / 10 ^ 9⌉₊ + 1 : ℕ) := by
      push_cast
      linarith
    exact_mod_cast hlt
  rw [seconds_eq, covering_finite, coveringAt, ticksAt_seconds, hceil, Nat.min_eq_left h]

variable {clock} {t : ℚ}

/-- The time of a frame that is near a time is within half a frame of it. -/
theorem Near.abs_seconds_sub_le {n : ℕ} (h : clock.Near n t) :
    |(n : ℚ) / clock.fps - t| ≤ 1 / (2 * clock.fps) := by
  have hfps : (0 : ℚ) < clock.fps := clock.cast_fps_pos
  have hback : (n : ℚ) / clock.fps - t = (n - t * clock.fps) / clock.fps := by
    rw [sub_div, mul_div_cancel_right₀ _ hfps.ne']
  calc |(n : ℚ) / clock.fps - t|
      = |(n : ℚ) - t * clock.fps| / clock.fps := by rw [hback, abs_div, abs_of_pos hfps]
    _ ≤ 1 / 2 / clock.fps := div_le_div_of_nonneg_right h hfps.le
    _ = 1 / (2 * clock.fps) := div_div 1 2 _

/-- As long as frames can count that far, a time is covered by the fewest frames that last for
it, up to the tolerance. -/
theorem isLeast_coveringAt (ht : 0 ≤ t) (hlimit : t * clock.fps ≤ frameLimit) :
    IsLeast {n : ℕ | t * clock.fps - 1 / 10 ^ 9 ≤ n} (clock.coveringAt t) := by
  have hceil : ⌈t * clock.fps - 1 / 10 ^ 9⌉₊ ≤ frameLimit := Nat.ceil_le.mpr (by linarith)
  rw [coveringAt, clock.ticksAt_of_nonneg ht, Nat.min_eq_left hceil]
  constructor
  · exact Nat.le_ceil (t * clock.fps - 1 / 10 ^ 9)
  · intro n hn
    exact Nat.ceil_le.mpr hn

/-- **The laws of a clock.**  In exact arithmetic and at every rate: both conversions to frames
keep the order of times, the infinite ones included; every frame that can be counted comes back
from its time; the nearest frame of a time that is not negative is at most half a frame away
and the covering frames are the fewest that will do, as long as frames can count that far; the
two conversions differ by a frame at most; and negative times and NaN have frame 0. -/
theorem conversions_lawful (clock : Clock) :
    (∀ s t : Exact, s ≤ t →
        clock.frame s ≤ clock.frame t ∧ clock.covering s ≤ clock.covering t) ∧
      (∀ n ≤ frameLimit, clock.frame (clock.seconds n : Exact) = n ∧
        clock.covering (clock.seconds n : Exact) = n) ∧
      (∀ t : ℚ, 0 ≤ t → t * clock.fps ≤ frameLimit →
        (∃ r : ℚ, clock.seconds (clock.frame (Exact.finite t)) = Exact.finite r ∧
          |r - t| ≤ 1 / (2 * clock.fps)) ∧
        IsLeast {n : ℕ | t * clock.fps - 1 / 10 ^ 9 ≤ n} (clock.covering (Exact.finite t))) ∧
      (∀ t : Exact, clock.frame t ≤ clock.covering t ∧
        clock.covering t ≤ clock.frame t + 1) ∧
      ∀ t : Exact, t < 0 ∨ t = .nan → clock.frame t = 0 ∧ clock.covering t = 0 := by
  refine ⟨?_, ?_, ?_, clock.frame_le_covering_le, ?_⟩
  · intro s t h
    exact ⟨clock.frame_mono h, clock.covering_mono h⟩
  · intro n h
    exact ⟨clock.frame_seconds h, clock.covering_seconds h⟩
  · intro t ht hlimit
    rw [frame_finite, covering_finite, seconds_eq]
    exact ⟨⟨_, rfl, (near_frameAt ht hlimit).abs_seconds_sub_le⟩, isLeast_coveringAt ht hlimit⟩
  · intro t ht
    have hnot : ¬ 0 < t := by
      rcases ht with hneg | rfl
      · exact Exact.not_pos_of_neg hneg
      · exact Exact.not_lt_nan 0
    exact ⟨clock.frame_of_not_pos hnot, clock.covering_of_not_pos hnot⟩

/-- At thirty frames a second: an endless time behind a negative one, the last frame that can be
counted, half a frame, and two times that are none. -/
theorem conversions_lawful_at_extremes :
    (standard.frame (Exact.finite (-7)) ≤ standard.frame (Exact.infinite false) ∧
        standard.covering (Exact.finite (-7)) ≤ standard.covering (Exact.infinite false)) ∧
      (standard.frame (standard.seconds frameLimit : Exact) = frameLimit ∧
        standard.covering (standard.seconds frameLimit : Exact) = frameLimit) ∧
      ((∃ r : ℚ, standard.seconds (standard.frame (Exact.finite (1 / 60))) = Exact.finite r ∧
          |r - 1 / 60| ≤ 1 / (2 * standard.fps)) ∧
        IsLeast {n : ℕ | 1 / 60 * (standard.fps : ℚ) - 1 / 10 ^ 9 ≤ n}
          (standard.covering (Exact.finite (1 / 60)))) ∧
      (standard.frame (Exact.infinite true) = 0 ∧ standard.covering (Exact.infinite true) = 0) ∧
      standard.frame Exact.nan = 0 ∧ standard.covering Exact.nan = 0 := by
  obtain ⟨hmono, hback, hnear, -, hnone⟩ := conversions_lawful standard
  have hlimit : (1 / 60 : ℚ) * standard.fps ≤ frameLimit := by
    norm_num [standard, standardRate, ofRate, frameLimit, UInt64.size]
  exact ⟨hmono _ _ (Exact.finite_le_infinite.mpr rfl), hback _ le_rfl,
    hnear _ (by norm_num) hlimit, hnone _ (Or.inl rfl), hnone _ (Or.inr rfl)⟩

end Clock

end Montage
