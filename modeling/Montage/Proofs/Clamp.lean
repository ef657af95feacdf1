import Montage.Clamp
import Montage.Proofs.Config

/-!
# Captions inside the video

In exact arithmetic, and with margins as settings without a fault give them, a
clamp answers every request with a span of rational times, whether the request
holds NaN, an infinity or anything else.  `Clamp.place_fits` says where that span
lies: inside the video, unless the video is shorter than the shortest caption.

The four steps are looked at one by one.  What carries over from one to the next
is `Clamp.Begins`: once it has been moved back, a caption begins with the video or
is over in time.  So it is cut off only if it asks for more than all of the video,
and how long it lasts does not depend on where it was to begin
(`Clamp.exists_place_eq`).
-/

namespace Montage

/-- How long a video of a given length can show a caption that asks for some duration: a
negative duration, or one that is no number, is none at all. -/
def Exact.within (video : ℚ) : Exact → ℚ
  | .finite duration => min (max duration 0) video
  | .infinite negative => if negative then 0 else video
  | .nan => 0

/-- A duration that is cut to a video does not pass the video. -/
theorem Exact.within_le {video : ℚ} (hvideo : 0 ≤ video) (duration : Exact) :
    duration.within video ≤ video := by
  cases duration with
  | finite d => exact min_le_right _ video
  | infinite s =>
      cases s with
      | true => exact hvideo
      | false => exact le_rfl
  | nan => exact hvideo

/-- A duration that is cut to a video is not negative. -/
theorem Exact.within_nonneg {video : ℚ} (hvideo : 0 ≤ video) (duration : Exact) :
    0 ≤ duration.within video := by
  cases duration with
  | finite d => exact le_min (le_max_right d 0) hvideo
  | infinite s =>
      cases s with
      | true => exact le_rfl
      | false => exact hvideo
  | nan => exact le_rfl

namespace Clamp

/-- A span that begins at `start` and lasts `duration` is where a clamp leaves a
caption in a video of length `video`. -/
structure Fits (minimum video start duration : ℚ) : Prop where
  start_nonneg : 0 ≤ start
  minimum_le : minimum ≤ duration
  stop_le : minimum ≤ video → start + duration ≤ video
  short : video < minimum → start = 0 ∧ duration = minimum

section Steps

variable {lookback minimum video : ℚ}

/-- The clamp with rational margins. -/
def exact (lookback minimum : ℚ) : Clamp Exact := ⟨.finite lookback, .finite minimum⟩

@[simp] theorem reliable_finite (hvideo : 0 ≤ video) :
    reliable (.finite video) = Exact.finite video := by
  rw [reliable, if_pos (Exact.isFinite_finite video), Exact.ofNat_eq, Exact.atLeast_finite,
    Nat.cast_zero, max_eq_right hvideo]

theorem requested_finite (d : ℚ) : requested (.finite d) = Exact.finite (max 0 d) := by
  change Scalar.atLeast 0 (Exact.finite d) = _
  rw [Exact.ofNat_eq, Exact.atLeast_finite, Nat.cast_zero]

/-- A duration that can pass is a rational that is not negative, or endless. -/
theorem requested_cases (hvideo : 0 ≤ video) (duration : Exact) :
    (∃ d : ℚ, 0 ≤ d ∧ requested duration = .finite d ∧ duration.within video = min d video) ∨
      requested duration = .infinite false ∧ duration.within video = video := by
  cases duration with
  | finite d =>
      exact Or.inl ⟨max 0 d, le_max_left 0 d, requested_finite d, by rw [max_comm]; rfl⟩
  | infinite s =>
      cases s with
      | true => exact Or.inl ⟨0, le_rfl, rfl, (min_eq_left hvideo).symm⟩
      | false => exact Or.inr ⟨rfl, rfl⟩
  | nan => exact Or.inl ⟨0, le_rfl, rfl, (min_eq_left hvideo).symm⟩

/-- Where a caption of duration `d` begins once it has been moved back. -/
structure Begins (lookback video s d : ℚ) : Prop where
  nonneg : 0 ≤ s
  /-- It is over in time, unless it begins with the video. -/
  in_time : s = 0 ∨ s + d ≤ video
  /-- At the very end of the video only a clamp without a gap lets it begin. -/
  clear : s < video ∨ s = 0 ∨ lookback = 0

/-- A caption that asks for no more than the video is over in time. -/
theorem Begins.stop_le {s d : ℚ} (h : Begins lookback video s d) (hd : d ≤ video) :
    s + d ≤ video := by
  rcases h.in_time with rfl | hin
  · rwa [zero_add]
  · exact hin

/-- In exact arithmetic a caption that begins too late, or would end too late, is moved to
the gap before the end. -/
theorem shiftedStart_rational (s d : ℚ) :
    (exact lookback minimum).shiftedStart (.finite video) (.finite s) (.finite d)
      = .finite (max 0 (if video ≤ s ∨ video < s + d then video - d - lookback else s)) := by
  have hover : overruns (Exact.finite video) (.finite s) (.finite d) = true ↔
      video ≤ s ∨ video < s + d := by
    simp [overruns]
  by_cases h : video ≤ s ∨ video < s + d
  · rw [shiftedStart, if_pos (hover.mpr h), if_pos h, Exact.finite_sub_finite, exact,
      Exact.finite_sub_finite, Exact.ofNat_eq, Exact.atLeast_finite, Nat.cast_zero]
  · rw [shiftedStart, if_neg (fun hpast => h (hover.mp hpast)), if_neg h, Exact.ofNat_eq,
      Exact.atLeast_finite, Nat.cast_zero]

/-- A caption that has been moved begins where a caption can begin. -/
theorem begins_of_shifted (hlookback : 0 ≤ lookback) {d : ℚ} (hd : 0 ≤ d) :
    Begins lookback video (max 0 (video - d - lookback)) d := by
  refine ⟨le_max_left 0 _, ?_, ?_⟩
  · rcases max_choice 0 (video - d - lookback) with h | h <;> rw [h]
    · exact Or.inl rfl
    · exact Or.inr (by linarith)
  · rcases hlookback.eq_or_lt with h | h
    · exact Or.inr (Or.inr h.symm)
    · rcases max_choice 0 (video - d - lookback) with h' | h' <;> rw [h']
      · exact Or.inr (Or.inl rfl)
      · exact Or.inl (by linarith)

/-- A caption that has been moved back begins at some rational time in front of the end. -/
theorem shiftedStart_finite (minimum : ℚ) (hlookback : 0 ≤ lookback) (start : Exact) {d : ℚ}
    (hd : 0 ≤ d) :
    ∃ s : ℚ, Begins lookback video s d ∧
      (exact lookback minimum).shiftedStart (.finite video) start (.finite d) = .finite s := by
  have hwith : Begins lookback video 0 d := ⟨le_rfl, Or.inl rfl, Or.inr (Or.inl rfl)⟩
  have hbehind : Begins lookback video (max 0 (video - d - lookback)) d :=
    begins_of_shifted hlookback hd
  cases start with
  | finite s =>
      refine ⟨_, ?_, shiftedStart_rational s d⟩
      by_cases hover : video ≤ s ∨ video < s + d
      · rwa [if_pos hover]
      · rw [if_neg hover]
        rw [not_or, not_le, not_lt] at hover
        rcases max_choice 0 s with h | h <;> rw [h]
        · exact hwith
        · exact ⟨h ▸ le_max_left 0 s, Or.inr hover.2, Or.inl hover.1⟩
  | infinite t =>
      cases t with
      | true => exact ⟨0, hwith, rfl⟩
      | false =>
          refine ⟨_, hbehind, ?_⟩
          have hover : overruns (.finite video) (Exact.infinite false) (.finite d) = true := rfl
          rw [shiftedStart, if_pos hover, Exact.finite_sub_finite, exact,
            Exact.finite_sub_finite, Exact.ofNat_eq, Exact.atLeast_finite, Nat.cast_zero]
  | nan => exact ⟨0, hwith, rfl⟩

/-- A caption without end begins with the video. -/
theorem shiftedStart_endless (start : Exact) :
    (exact lookback minimum).shiftedStart (.finite video) start (.infinite false) = .finite 0 := by
  cases start with
  | finite s =>
      have hover : overruns (.finite video) (.finite s) (Exact.infinite false) := by
        simp [overruns]
      rw [shiftedStart, if_pos hover]
      rfl
  | infinite t => cases t <;> rfl
  | nan => rfl

/-- A caption is cut off only where it begins with the video and asks for more than all of
it, or is raised to the minimum. -/
theorem fittedDuration_finite {s d : ℚ} (h : Begins lookback video s d) :
    (exact lookback minimum).fittedDuration (.finite video) (.finite s) (.finite d)
      = .finite (max minimum (min d video)) := by
  by_cases hpast : video < s + d
  · obtain rfl : s = 0 := h.in_time.resolve_right (not_le.mpr hpast)
    rw [zero_add] at hpast
    rw [fittedDuration, Exact.finite_add_finite, zero_add,
      if_pos (Exact.finite_lt_finite.mpr hpast), Exact.finite_sub_finite, exact,
      Exact.atLeast_finite, sub_zero, min_eq_right hpast.le]
  · have hd : d ≤ video := by linarith [h.nonneg]
    rw [fittedDuration, Exact.finite_add_finite,
      if_neg (fun h => hpast (Exact.finite_lt_finite.mp h)), exact, Exact.atLeast_finite,
      min_eq_left hd]

/-- A caption without end lasts as long as the video, and the minimum at least. -/
theorem fittedDuration_endless :
    (exact lookback minimum).fittedDuration (.finite video) (.finite 0) (.infinite false)
      = .finite (max minimum video) := by
  rw [fittedDuration, Exact.finite_add_infinite, if_pos (Exact.finite_lt_infinite.mpr rfl),
    Exact.finite_sub_finite, exact, Exact.atLeast_finite, sub_zero]

/-- A caption that sticks out is moved back until it does not, or to the beginning. -/
theorem settledStart_finite (s d : ℚ) :
    settledStart (.finite video) (.finite s) (.finite d)
      = Exact.finite (if video < s + d then max 0 (video - d) else s) := by
  by_cases hpast : video < s + d
  · rw [settledStart, Exact.finite_add_finite, if_pos (Exact.finite_lt_finite.mpr hpast),
      if_pos hpast, Exact.finite_sub_finite, Exact.ofNat_eq, Exact.atLeast_finite, Nat.cast_zero]
  · rw [settledStart, Exact.finite_add_finite,
      if_neg (fun h => hpast (Exact.finite_lt_finite.mp h)), if_neg hpast]

/-- Sliding a caption forward once more makes it fit. -/
theorem fits_settled {s d : ℚ} (hs : 0 ≤ s) (hsd : s + d ≤ video) :
    Fits minimum video
      (if video < s + max minimum d then max 0 (video - max minimum d) else s)
      (max minimum d) where
  start_nonneg := by
    by_cases hpast : video < s + max minimum d
    · rw [if_pos hpast]
      exact le_max_left 0 _
    · rwa [if_neg hpast]
  minimum_le := le_max_left minimum d
  stop_le hfits := by
    have hd : max minimum d ≤ video := max_le hfits (by linarith)
    by_cases hpast : video < s + max minimum d
    · rw [if_pos hpast, max_eq_right (by linarith)]
      linarith
    · rw [if_neg hpast]
      exact not_lt.mp hpast
  short hshort := by
    have hd : max minimum d = minimum := max_eq_left (by linarith)
    rw [hd, if_pos (by linarith), max_eq_left (by linarith)]
    exact ⟨rfl, rfl⟩

/-- Once it is known where a caption begins, the rest of its span follows. -/
theorem place_of_begins {request : Span Exact} {s d : ℚ} (hvideo : 0 ≤ video)
    (hduration : requested request.duration = .finite d) (hbegins : Begins lookback video s d)
    (hstart : (exact lookback minimum).shiftedStart (.finite video) request.start (.finite d)
      = .finite s) :
    (exact lookback minimum).place (.finite video) request =
      ⟨.finite (if video < s + max minimum (min d video)
          then max 0 (video - max minimum (min d video)) else s),
        .finite (max minimum (min d video))⟩ := by
  simp only [place, reliable_finite hvideo, hduration, hstart, fittedDuration_finite hbegins,
    settledStart_finite]

/-- The duration of a placed caption does not depend on where it was to begin. -/
theorem exists_place_eq (minimum : ℚ) (hlookback : 0 ≤ lookback) (hvideo : 0 ≤ video)
    (request : Span Exact) :
    ∃ s d : ℚ, Begins lookback video s d ∧ d = request.duration.within video ∧
      (exact lookback minimum).place (.finite video) request =
        ⟨.finite (if video < s + max minimum d then max 0 (video - max minimum d) else s),
          .finite (max minimum d)⟩ := by
  rcases requested_cases hvideo request.duration with ⟨d, hd, heq, hwithin⟩ | ⟨heq, hwithin⟩
  · obtain ⟨s, hbegins, hstart⟩ := shiftedStart_finite minimum hlookback request.start hd
    refine ⟨s, min d video, ⟨hbegins.nonneg, ?_, hbegins.clear⟩, hwithin.symm,
      place_of_begins hvideo heq hbegins hstart⟩
    exact hbegins.in_time.imp_right fun h => by linarith [min_le_left d video]
  · refine ⟨0, video, ⟨le_rfl, Or.inl rfl, Or.inr (Or.inl rfl)⟩, hwithin.symm, ?_⟩
    simp only [place, reliable_finite hvideo, heq, shiftedStart_endless, fittedDuration_endless,
      settledStart_finite]

/-- **Captions fit.**  Every request, NaN and the infinities included, gets a
span of rational times that lies inside the video, or begins with it and lasts
the minimum where the video is shorter than that. -/
theorem place_fits (minimum : ℚ) (hlookback : 0 ≤ lookback) (hvideo : 0 ≤ video)
    (request : Span Exact) :
    ∃ s d : ℚ, (exact lookback minimum).place (.finite video) request = ⟨.finite s, .finite d⟩ ∧
      Fits minimum video s d := by
  obtain ⟨s, d, hbegins, hd, hplace⟩ := exists_place_eq minimum hlookback hvideo request
  have hwithin : d ≤ video := hd ▸ Exact.within_le hvideo request.duration
  exact ⟨_, _, hplace, fits_settled hbegins.nonneg (hbegins.stop_le hwithin)⟩

end Steps

/-- In exact arithmetic settings without a fault give a clamp with rational
margins that are not negative. -/
theorem exists_ofConfig {config : CompilerConfig Exact} (h : config.fault? = none) :
    ∃ lookback minimum : ℚ, 0 ≤ lookback ∧ 0 ≤ minimum ∧
      config.minOverlay = .finite minimum ∧ ofConfig config = exact lookback minimum := by
  obtain ⟨lookback, hlookback, hlookbackEq⟩ := CompilerConfig.exists_margin h .overlayLookback
  obtain ⟨minimum, hminimum, hminimumEq⟩ := CompilerConfig.exists_margin h .minOverlay
  change config.overlayLookback = .finite lookback at hlookbackEq
  change config.minOverlay = .finite minimum at hminimumEq
  refine ⟨lookback, minimum, hlookback, hminimum, hminimumEq, ?_⟩
  rw [ofConfig, ofMargins, hlookbackEq, hminimumEq, Exact.ofNat_eq, Exact.atLeast_finite,
    Exact.atLeast_finite, Nat.cast_zero, max_eq_right hlookback, max_eq_right hminimum, exact]

end Clamp

end Montage
