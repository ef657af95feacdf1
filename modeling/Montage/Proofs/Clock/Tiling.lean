import Mathlib.Algebra.BigOperators.Intervals
import Montage.Proofs.Clock.Conversions

/-!
# Spans of frames tile

A span is rounded at both edges, so a span that begins where another one ends begins on the
frame on which the other one ends (`frame_add_span_sub`).  The lengths of spans that follow each
other therefore add up to the distance between the outermost frames, however many spans there
are.  Lengths that are rounded on their own would add up their errors.

Lengths in frames are differences that stop at zero.  They are differences of frames of ordered
times, so that nothing is ever lost there.
-/

namespace Montage

namespace Exact

/-- A rational time and the distance from it to another time lead to the other time. -/
theorem finite_add_sub_cancel (p : ℚ) (x : Exact) : finite p + (x - finite p) = x := by
  cases x with
  | finite q => rw [finite_sub_finite, finite_add_finite, add_sub_cancel]
  | infinite s => rfl
  | nan => rfl

/-- From another time there is no way back to -∞. -/
theorem ne_low_of_le {x y : Exact} (hx : x ≠ infinite true) (h : x ≤ y) : y ≠ infinite true := by
  rintro rfl
  cases x with
  | finite q => exact Bool.noConfusion (finite_le_infinite.mp h)
  | infinite s =>
      obtain rfl : s = true := by simpa using h
      exact hx rfl
  | nan => exact not_nan_le _ h

end Exact

namespace Clock

variable {clock : Clock} {a b : ℕ} {t d : ℚ}

/-- A span to a time ends on the frame of that time.  Only from -∞ does no length lead to
another time. -/
theorem frame_add_span_sub {s t : Exact} (hs : s ≠ .infinite true) (h : s ≤ t) :
    clock.frame s + clock.span s (t - s) = clock.frame t := by
  have hle := clock.frame_mono h
  cases s with
  | finite p =>
      rw [span, Exact.finite_add_sub_cancel]
      omega
  | infinite low =>
      cases low with
      | true => exact absurd rfl hs
      | false =>
          -- Behind an endless time there are no frames left to count.
          have hstart := clock.frame_endless
          have hend := clock.frame_le_frameLimit t
          have hspan := clock.frame_le_frameLimit (.infinite false + (t - .infinite false))
          rw [span]
          omega
  | nan => exact absurd h (Exact.not_nan_le t)

section Chain

variable {times : ℕ → Exact} {n : ℕ}

/-- Times that rise from one above the lowest never come down to it. -/
theorem ne_low_of_chain (hbegin : times 0 ≠ .infinite true)
    (hchain : ∀ i < n, times i ≤ times (i + 1)) : times n ≠ .infinite true := by
  induction n with
  | zero => exact hbegin
  | succ n ih =>
      have hn := ih fun i hi => hchain i (Nat.lt_succ_of_lt hi)
      exact Exact.ne_low_of_le hn (hchain n (Nat.lt_succ_self n))

/-- The spans of a chain of times add up. -/
theorem sum_spans (hbegin : times 0 ≠ .infinite true)
    (hchain : ∀ i < n, times i ≤ times (i + 1)) :
    ∑ i ∈ Finset.range n, (clock.span (times i) (times (i + 1) - times i) : ℤ)
      = clock.frame (times n) - clock.frame (times 0) := by
  induction n with
  | zero => rw [Finset.sum_range_zero, sub_self]
  | succ n ih =>
      have hbefore : ∀ i < n, times i ≤ times (i + 1) :=
        fun i hi => hchain i (Nat.lt_succ_of_lt hi)
      have hstep : clock.frame (times n) + clock.span (times n) (times (n + 1) - times n)
          = clock.frame (times (n + 1)) :=
        frame_add_span_sub (ne_low_of_chain hbegin hbefore) (hchain n (Nat.lt_succ_self n))
      rw [Finset.sum_range_succ, ih hbefore]
      omega

end Chain

/-- Frames near two times are as far apart as the times are, up to a frame. -/
theorem Near.abs_sub_sub_le (ha : clock.Near a t) (hb : clock.Near b (t + d)) :
    |(b : ℚ) - a - d * clock.fps| ≤ 1 := by
  obtain ⟨ha, ha'⟩ := abs_le.mp ha
  obtain ⟨hb, hb'⟩ := abs_le.mp hb
  have hticks : (t + d) * clock.fps = t * clock.fps + d * clock.fps := add_mul _ _ _
  rw [abs_le]
  constructor <;> linarith

/-- The frames of a span are its length in ticks, give or take one. -/
theorem abs_span_sub_le (ht : 0 ≤ t) (hd : 0 ≤ d) (hlimit : (t + d) * clock.fps ≤ frameLimit) :
    |(clock.span (Exact.finite t) (Exact.finite d) : ℚ) - d * clock.fps| ≤ 1 := by
  have hle : t ≤ t + d := le_add_of_nonneg_right hd
  have hfirst : clock.Near (clock.frameAt t) t := near_frameAt_of_le ht hle hlimit
  have hstop : clock.Near (clock.frameAt (t + d)) (t + d) := near_frameAt (ht.trans hle) hlimit
  rw [span, Exact.finite_add_finite, frame_finite, frame_finite,
    Nat.cast_sub (clock.frameAt_mono hle)]
  exact hfirst.abs_sub_sub_le hstop

/-- **Spans tile without loss.**  In exact arithmetic and at every rate, the spans between times
that do not decrease follow each other frame by frame, and their lengths in frames add up to
the distance between the first frame and the last.  The times may be negative, and infinite too,
except that none is -∞.  A span is as long as its time is, up to a frame, as long as frames can
count that far. -/
theorem spans_tile (clock : Clock) :
    (∀ (n : ℕ) (times : ℕ → Exact), times 0 ≠ .infinite true →
        (∀ i < n, times i ≤ times (i + 1)) →
          (∀ i < n, clock.frame (times i) + clock.span (times i) (times (i + 1) - times i)
            = clock.frame (times (i + 1))) ∧
          ∑ i ∈ Finset.range n, (clock.span (times i) (times (i + 1) - times i) : ℤ)
            = clock.frame (times n) - clock.frame (times 0)) ∧
      ∀ t d : ℚ, 0 ≤ t → 0 ≤ d → (t + d) * clock.fps ≤ frameLimit →
        |(clock.span (Exact.finite t) (Exact.finite d) : ℚ) - d * clock.fps| ≤ 1 := by
  refine ⟨?_, fun t d => abs_span_sub_le⟩
  intro n times hbegin hchain
  refine ⟨?_, sum_spans hbegin hchain⟩
  intro i hi
  have hbefore : ∀ j < i, times j ≤ times (j + 1) := fun j hj => hchain j (hj.trans hi)
  exact frame_add_span_sub (ne_low_of_chain hbegin hbefore) (hchain i hi)

/-- Times that are 1.01 seconds apart, from one second before the video begins. -/
def strides (i : ℕ) : Exact := .finite (101 / 100 * i - 1)

/-- Three spans at 24 frames a second, the first one almost in front of the video, and a span
of 1.01 seconds. -/
theorem spans_tile_from_below_zero :
    ∑ i ∈ Finset.range 3, ((ofRate 24).span (strides i) (strides (i + 1) - strides i) : ℤ) = 49 ∧
      |((ofRate 24).span (Exact.finite (101 / 100)) (Exact.finite (101 / 100)) : ℚ)
        - 101 / 100 * (ofRate 24).fps| ≤ 1 := by
  obtain ⟨hchains, hlengths⟩ := spans_tile (ofRate 24)
  have hchain : ∀ i < 3, strides i ≤ strides (i + 1) := by
    intro i _
    refine Exact.finite_le_finite.mpr ?_
    push_cast
    linarith
  obtain ⟨-, hsum⟩ := hchains 3 strides Exact.noConfusion hchain
  have hfirst : (ofRate 24).frame (strides 0) = 0 := by decide +kernel
  have hlast : (ofRate 24).frame (strides 3) = 49 := by decide +kernel
  rw [hfirst, hlast] at hsum
  refine ⟨hsum, hlengths _ _ (by norm_num) (by norm_num) ?_⟩
  norm_num [ofRate, frameLimit, UInt64.size]

end Clock

end Montage
