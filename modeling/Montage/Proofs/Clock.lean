import Montage.Clock
import Montage.Proofs.Numbers.Exact

/-!
# The frame clock in exact arithmetic

`frameAt` and `coveringAt` are what a clock makes of a rational time.  Both keep
the order of times, and they never differ by more than a frame:

    frameAt t ≤ coveringAt t ≤ frameAt t + 1

The first inequality is where the tolerance of `1e-9` matters.  It is far below
half a frame, so a time that rounds up to a frame is not covered by fewer.

`Near` is the contract of rounding to the nearest frame.  It is kept at every time
that is not negative, as long as frames can count that far (`near_frameAt`).
-/

namespace Montage

namespace Clock

variable (clock : Clock)

/-- The frames that a rational time lasts, before rounding. -/
def ticksAt (t : ℚ) : ℚ := max 0 t * clock.fps

/-- The frame nearest to a rational time. -/
def frameAt (t : ℚ) : ℕ := min ⌊clock.ticksAt t + 1 / 2⌋₊ frameLimit

/-- The frames needed to cover a rational time. -/
def coveringAt (t : ℚ) : ℕ := min ⌈clock.ticksAt t - 1 / 10 ^ 9⌉₊ frameLimit

theorem cast_fps_pos : (0 : ℚ) < clock.fps := Nat.cast_pos.mpr clock.fps_pos

theorem ticks_finite (t : ℚ) : clock.ticks (Exact.finite t) = .finite (clock.ticksAt t) := by
  rw [ticks, Exact.ofNat_eq, Exact.atLeast_finite, Exact.whole_eq, Exact.finite_mul_finite,
    Nat.cast_zero, ticksAt]

@[simp] theorem frame_finite (t : ℚ) : clock.frame (Exact.finite t) = clock.frameAt t := by
  rw [frame, ticks_finite, Exact.nearest_finite, frameAt]

/-- The tolerance of covering frames, in exact arithmetic. -/
theorem covering_eq (t : Exact) :
    clock.covering t = Scalar.ceiling (clock.ticks t - .finite (1 / 10 ^ 9)) := by
  have htolerance : Exact.decimal 1 true 9 = 1 / 10 ^ 9 := by norm_num [Exact.decimal]
  rw [covering, Exact.ofScientific_eq, htolerance]

@[simp] theorem covering_finite (t : ℚ) : clock.covering (Exact.finite t) = clock.coveringAt t := by
  rw [covering_eq, ticks_finite, Exact.finite_sub_finite, Exact.ceiling_finite, coveringAt]

theorem ticksAt_of_nonneg {t : ℚ} (h : 0 ≤ t) : clock.ticksAt t = t * clock.fps := by
  rw [ticksAt, max_eq_right h]

/-- Ticks are never negative: a time in front of the video has none. -/
theorem ticksAt_nonneg (t : ℚ) : 0 ≤ clock.ticksAt t :=
  mul_nonneg (le_max_left 0 t) (Nat.cast_nonneg _)

theorem ticksAt_mono : Monotone clock.ticksAt := by
  intro s t h
  exact mul_le_mul_of_nonneg_right (max_le_max le_rfl h) (Nat.cast_nonneg _)

/-- A later time is not nearest to an earlier frame. -/
theorem frameAt_mono : Monotone clock.frameAt := by
  intro s t h
  have hticks := clock.ticksAt_mono h
  exact min_le_min_right _ (Nat.floor_mono (by linarith))

/-- A later time needs no fewer frames to be covered. -/
theorem coveringAt_mono : Monotone clock.coveringAt := by
  intro s t h
  have hticks := clock.ticksAt_mono h
  exact min_le_min_right _ (Nat.ceil_mono (by linarith))

@[simp] theorem frameAt_zero : clock.frameAt 0 = 0 := by
  have hzero : ⌊clock.ticksAt 0 + 1 / 2⌋₊ = 0 := by
    rw [Nat.floor_eq_zero, ticksAt, max_self, zero_mul]
    norm_num
  rw [frameAt, hzero, Nat.zero_min]

/-- The frame nearest to a time lies within the frames that cover the time. -/
theorem frameAt_le_coveringAt (t : ℚ) : clock.frameAt t ≤ clock.coveringAt t := by
  refine min_le_min_right _ (Nat.le_of_lt_succ ?_)
  have hceil := Nat.le_ceil (clock.ticksAt t - 1 / 10 ^ 9)
  have hnonneg : 0 ≤ clock.ticksAt t + 1 / 2 := by linarith [clock.ticksAt_nonneg t]
  rw [Nat.floor_lt hnonneg]
  push_cast
  linarith

/-- Covering a time takes at most one frame more than its nearest frame. -/
theorem coveringAt_le_frameAt_succ (t : ℚ) : clock.coveringAt t ≤ clock.frameAt t + 1 := by
  have hceil : ⌈clock.ticksAt t - 1 / 10 ^ 9⌉₊ ≤ ⌊clock.ticksAt t + 1 / 2⌋₊ + 1 := by
    have hfloor := Nat.lt_floor_add_one (clock.ticksAt t + 1 / 2)
    rw [Nat.ceil_le]
    push_cast
    linarith
  rw [coveringAt, frameAt]
  omega

/-- A frame is as near to a time as frames allow. -/
def Near (clock : Clock) (frame : ℕ) (t : ℚ) : Prop := |(frame : ℚ) - t * clock.fps| ≤ 1 / 2

variable {clock} {t : ℚ}

/-- The frame of a time is near it, as long as frames can count that far. -/
theorem near_frameAt (ht : 0 ≤ t) (hlimit : t * clock.fps ≤ frameLimit) :
    clock.Near (clock.frameAt t) t := by
  have hticks : clock.ticksAt t = t * clock.fps := clock.ticksAt_of_nonneg ht
  have hnonneg : 0 ≤ t * clock.fps := hticks ▸ clock.ticksAt_nonneg t
  have hfloor : ⌊t * clock.fps + 1 / 2⌋₊ ≤ frameLimit := by
    refine Nat.le_of_lt_succ ((Nat.floor_lt (by linarith)).mpr ?_)
    push_cast
    linarith
  have hle := Nat.floor_le (show 0 ≤ t * clock.fps + 1 / 2 by linarith)
  have hlt := Nat.lt_floor_add_one (t * clock.fps + 1 / 2)
  rw [Near, frameAt, hticks, Nat.min_eq_left hfloor, abs_le]
  constructor <;> linarith

/-- Frames that can be counted up to a time can be counted up to every earlier one. -/
theorem near_frameAt_of_le {last : ℚ} (ht : 0 ≤ t) (hlast : t ≤ last)
    (hlimit : last * clock.fps ≤ frameLimit) : clock.Near (clock.frameAt t) t :=
  near_frameAt ht ((mul_le_mul_of_nonneg_right hlast (Nat.cast_nonneg _)).trans hlimit)

end Clock

end Montage
