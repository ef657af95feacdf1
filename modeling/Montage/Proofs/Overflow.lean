import Montage.Proofs.Compiler
import Montage.Proofs.Room

/-!
# When times overflow

Every length of a plan is checked to be finite, and nothing more: lengths that are
finite one by one may add up to more than the largest double.  Then the video does
not end, and neither does its background.

`Layout.FiniteTimes` says that this has not happened.  Two sums decide it, that of
the lengths and that of the video and its tail (`finiteTimes_iff`), and for a whole
plan one sum is enough: the video is never longer than its footage
(`videoDuration_le`), so its times are finite if the footage and a tail are
(`finiteTimes_of_footage`).  Captions are finite in any case: the clamp does not rely
on a video that does not end (`isFinite_caption`).
-/

namespace Montage

namespace Double

/-! ## Finite times -/

theorem isFinite_iff {x : Float} : Scalar.isFinite x = true ↔ ∃ q : ℚ, exact x = .finite q := by
  rw [isFinite_exact]
  exact Exact.isFinite_iff

theorem exact_atLeast (low x : Float) :
    exact (Scalar.atLeast low x) = Scalar.atLeast (exact low) (exact x) :=
  RoundedScalar.toExact_atLeast low x

/-- A sum is finite only where both numbers are. -/
theorem isFinite_of_add {x y : Float} (h : Scalar.isFinite (x + y) = true) :
    Scalar.isFinite x = true ∧ Scalar.isFinite y = true := by
  obtain ⟨r, hr⟩ := isFinite_iff.mp h
  rw [exact_sum] at hr
  obtain ⟨s, hs⟩ := finite_of_closest hr
  obtain ⟨p, q, hp, hq⟩ := Exact.finite_of_add hs
  exact ⟨isFinite_iff.mpr ⟨p, hp⟩, isFinite_iff.mpr ⟨q, hq⟩⟩

/-- A difference is finite only where the number is from which is taken. -/
theorem isFinite_of_sub {x y : Float} (h : Scalar.isFinite (x - y) = true) :
    Scalar.isFinite x = true := by
  obtain ⟨r, hr⟩ := isFinite_iff.mp h
  rw [exact_difference, Exact.sub_eq_add_neg] at hr
  obtain ⟨s, hs⟩ := finite_of_closest hr
  obtain ⟨p, _, hp, _⟩ := Exact.finite_of_add hs
  exact isFinite_iff.mpr ⟨p, hp⟩

/-- What lies between two finite doubles after rounding is finite. -/
theorem isFinite_of_between {x y z : Float} (hx : Scalar.isFinite x = true)
    (hz : Scalar.isFinite z = true) (hxy : x ≤ y) (hyz : y ≤ z) : Scalar.isFinite y = true := by
  obtain ⟨p, hp⟩ := isFinite_iff.mp hx
  obtain ⟨q, hq⟩ := isFinite_iff.mp hz
  rw [le_iff, hp] at hxy
  rw [le_iff, hq] at hyz
  obtain ⟨r, hr, _⟩ := Exact.exists_of_between hxy hyz
  exact isFinite_iff.mpr ⟨r, hr⟩

/-- A finite time that is not negative. -/
def IsTime (x : Float) : Prop := ∃ q : ℚ, 0 ≤ q ∧ exact x = .finite q

theorem IsTime.isFinite {x : Float} (h : IsTime x) : Scalar.isFinite x = true := by
  obtain ⟨q, _, hq⟩ := h
  exact isFinite_iff.mpr ⟨q, hq⟩

theorem isTime_zero : IsTime (0 : Float) := ⟨0, le_rfl, exact_zero⟩

/-- What is moved up to a time is a time, if it is not too large. -/
theorem isTime_atLeast {low x : Float} {q : ℚ} (hlow : IsTime low) (hx : exact x ≤ .finite q) :
    IsTime (Scalar.atLeast low x) := by
  obtain ⟨p, hp, hexact⟩ := hlow
  rw [IsTime, exact_atLeast, hexact]
  cases hvalue : exact x with
  | finite r => exact ⟨max p r, le_max_of_le_left hp, Exact.atLeast_finite p r⟩
  | infinite s =>
      rw [hvalue, Exact.infinite_le_finite] at hx
      rw [hx]
      exact ⟨p, hp, Exact.atLeast_infinite p true⟩
  | nan => exact ⟨p, hp, Exact.atLeast_nan _⟩

/-- A finite number that is raised to a time is a time. -/
theorem isTime_atLeast_of_isFinite {low x : Float} (hlow : IsTime low)
    (hx : Scalar.isFinite x = true) : IsTime (Scalar.atLeast low x) := by
  obtain ⟨q, hq⟩ := isFinite_iff.mp hx
  exact isTime_atLeast hlow (by rw [hq]; exact Exact.le_refl (by simp))

/-- Taking a time away never makes a number larger. -/
theorem sub_le {x y : Float} {q : ℚ} (hx : exact x = .finite q) (hy : IsTime y) :
    exact (x - y) ≤ .finite q := by
  obtain ⟨p, hp, hexact⟩ := hy
  have hkeep := closest_exact x
  rw [hx] at hkeep
  rw [exact_difference, hx, hexact, Exact.finite_sub_finite, ← hkeep]
  exact closest_mono (Exact.finite_le_finite.mpr (by linarith))

/-- The difference of two times is finite. -/
theorem IsTime.sub {x y : Float} (hx : IsTime x) (hy : IsTime y) :
    Scalar.isFinite (x - y) = true := by
  obtain ⟨p, hp, hxp⟩ := hx
  have hhigh := sub_le hxp hy
  obtain ⟨q, hq, hyq⟩ := hy
  have hkeep := closest_exact y
  rw [hyq] at hkeep
  have hlow : Exact.finite (-q) ≤ exact (x - y) := by
    have hmirror : closest (.finite (-q)) = .finite (-q) :=
      (nearby_neg q).trans (congrArg (-·) hkeep)
    rw [exact_difference, hxp, hyq, Exact.finite_sub_finite, ← hmirror]
    exact closest_mono (Exact.finite_le_finite.mpr (by linarith))
  obtain ⟨r, hr, _⟩ := Exact.exists_of_between hlow hhigh
  exact isFinite_iff.mpr ⟨r, hr⟩

end Double

/-! ## Settings -/

/-- A volume among settings without a fault is finite. -/
theorem CompilerConfig.isFinite_level {config : CompilerConfig Float} (h : config.fault? = none)
    (which : Level) : Scalar.isFinite (config.level which) = true := by
  have hlevel := (fault?_eq_none_iff.mp h).2.2 which
  rw [isLevel, Bool.and_eq_true, decide_eq_true_eq, decide_eq_true_eq] at hlevel
  exact Double.isFinite_of_between (by decide +kernel) (by decide +kernel) hlevel.1 hlevel.2

/-! ## Captions -/

namespace Clamp

open Double

/-- A video is taken for one that lasts for a time, whatever its length is. -/
theorem isTime_reliable (video : Float) : IsTime (reliable video) := by
  unfold reliable
  by_cases hvideo : Scalar.isFinite video = true
  · rw [if_pos hvideo]
    exact isTime_atLeast_of_isFinite isTime_zero hvideo
  · rw [if_neg hvideo]
    exact isTime_zero

/-- A finite duration is taken for a request of a time. -/
theorem isTime_requested {duration : Float} (h : Scalar.isFinite duration = true) :
    IsTime (requested duration) := by
  unfold requested
  cases Scalar.isNaN duration with
  | true => exact isTime_zero
  | false => exact isTime_atLeast_of_isFinite isTime_zero h

/-- A clamp whose margins are times. -/
structure Sound (clamp : Clamp Float) : Prop where
  lookback : IsTime clamp.lookback
  minimum : IsTime clamp.minimum

/-- Settings that make sense have margins that are times. -/
theorem sound_ofConfig {config : CompilerConfig Float} (h : config.fault? = none) :
    Sound (ofConfig config) := by
  have hmargins := (CompilerConfig.fault?_eq_none_iff.mp h).2.1
  have hfinite : ∀ which, Scalar.isFinite (config.margin which) = true := by
    intro which
    have hmargin := hmargins which
    rw [CompilerConfig.isMargin, Bool.and_eq_true] at hmargin
    exact hmargin.1
  exact ⟨isTime_atLeast_of_isFinite isTime_zero (hfinite .overlayLookback),
    isTime_atLeast_of_isFinite isTime_zero (hfinite .minOverlay)⟩

section Steps

variable {clamp : Clamp Float} {video start duration : Float}

/-- A caption that has been moved begins at a time. -/
theorem isTime_shiftedStart (hclamp : Sound clamp) (hvideo : IsTime video)
    (hstart : Scalar.isFinite start = true) (hduration : IsTime duration) :
    IsTime (clamp.shiftedStart video start duration) := by
  unfold shiftedStart
  by_cases hover : overruns video start duration = true
  · rw [if_pos hover]
    obtain ⟨q, hq⟩ := isFinite_iff.mp (hvideo.sub hduration)
    exact isTime_atLeast isTime_zero (sub_le hq hclamp.lookback)
  · rw [if_neg hover]
    exact isTime_atLeast_of_isFinite isTime_zero hstart

/-- It lasts for a time. -/
theorem isTime_fittedDuration (hclamp : Sound clamp) (hvideo : IsTime video)
    (hstart : IsTime start) (hduration : IsTime duration) :
    IsTime (clamp.fittedDuration video start duration) := by
  unfold fittedDuration
  by_cases hpast : video < start + duration
  · rw [if_pos hpast]
    exact isTime_atLeast_of_isFinite hclamp.minimum (hvideo.sub hstart)
  · rw [if_neg hpast]
    exact isTime_atLeast_of_isFinite hclamp.minimum hduration.isFinite

/-- Where it is settled at the end is a time. -/
theorem isTime_settledStart (hvideo : IsTime video) (hstart : IsTime start)
    (hduration : IsTime duration) : IsTime (settledStart video start duration) := by
  unfold settledStart
  by_cases hpast : video < start + duration
  · rw [if_pos hpast]
    exact isTime_atLeast_of_isFinite isTime_zero (hvideo.sub hduration)
  · rw [if_neg hpast]
    exact hstart

end Steps

/-- Finite requests get finite times, whether the video ends or not. -/
theorem isTime_place {clamp : Clamp Float} (hclamp : Sound clamp) (video : Float)
    (request : Span Float) (hstart : Scalar.isFinite request.start = true)
    (hduration : Scalar.isFinite request.duration = true) :
    IsTime (clamp.place video request).start ∧ IsTime (clamp.place video request).duration := by
  have hvideo := isTime_reliable video
  have hrequested := isTime_requested hduration
  have hshifted := isTime_shiftedStart hclamp hvideo hstart hrequested
  have hfitted := isTime_fittedDuration hclamp hvideo hshifted hrequested
  exact ⟨isTime_settledStart hvideo hshifted hfitted, hfitted⟩

end Clamp

/-! ## The schedule -/

namespace Schedule

open Double

/-- A finite length of at least `w` seconds. -/
def AtLeast (w : ℚ) (length : Float) : Prop := ∃ q : ℚ, w ≤ q ∧ exact length = .finite q

section Cursor

variable {overlap cursor raw length : Float} {w : ℚ}

/-- A clip ends after its overlap could have passed, and the sum of the lengths is
ahead of it. -/
theorem stop_le (hlength : AtLeast w length) (hcursor : .finite 0 ≤ exact cursor)
    (hraw : exact cursor ≤ exact raw) :
    .finite w ≤ exact (cursor + length) ∧ exact (cursor + length) ≤ exact (raw + length) := by
  obtain ⟨q, hwq, hq⟩ := hlength
  have hkeep := closest_exact length
  rw [hq] at hkeep
  rw [exact_sum, exact_sum, hq]
  constructor
  · have hle := closest_mono (Exact.add_le_add_right hcursor q)
    rw [Exact.finite_add_finite, zero_add, hkeep] at hle
    exact Exact.le_trans (Exact.finite_le_finite.mpr hwq) hle
  · exact closest_mono (Exact.add_le_add_right hraw q)

/-- The next clip begins no later than this one ends, and not before the video. -/
theorem next_le (hoverlap : exact overlap = .finite w) (hw : 0 ≤ w)
    (hcursor : .finite w ≤ exact cursor) :
    .finite 0 ≤ exact (cursor - overlap) ∧ exact (cursor - overlap) ≤ exact cursor := by
  obtain ⟨_, hnan⟩ := Exact.ne_nan_of_le hcursor
  rw [exact_difference, hoverlap, Exact.sub_eq_add_neg, Exact.neg_finite]
  constructor
  · have hle := closest_mono (Exact.add_le_add_right hcursor (-w))
    rw [Exact.finite_add_finite, add_neg_cancel] at hle
    exact Exact.le_trans (Exact.le_of_eq nearby_zero.symm (by simp)) hle
  · have hle := closest_mono (Exact.add_le_add_left hnan (neg_nonpos.mpr hw))
    have hzero : exact cursor + .finite 0 = exact cursor := Exact.add_zero _
    rw [hzero, closest_exact] at hle
    exact hle

end Cursor

/-- Footage ends after it begins, and no later than its lengths add up to. -/
theorem endFrom_le {overlap cursor raw : Float} {w : ℚ} {lengths : List Float}
    (hoverlap : exact overlap = .finite w) (hw : 0 ≤ w)
    (hlengths : ∀ length ∈ lengths, AtLeast w length) (hne : lengths ≠ [])
    (hcursor : .finite 0 ≤ exact cursor) (hraw : exact cursor ≤ exact raw) :
    .finite w ≤ exact (endFrom overlap cursor lengths) ∧
      exact (endFrom overlap cursor lengths) ≤ exact (lengths.foldl (· + ·) raw) := by
  induction lengths generalizing cursor raw with
  | nil => exact absurd rfl hne
  | cons length rest ih =>
      obtain ⟨hlow, hhigh⟩ := stop_le (hlengths length List.mem_cons_self) hcursor hraw
      cases rest with
      | nil => exact ⟨hlow, hhigh⟩
      | cons second rest =>
          obtain ⟨hnext, hback⟩ := next_le hoverlap hw hlow
          exact ih (fun l hl => hlengths l (List.mem_cons_of_mem _ hl)) (by simp) hnext
            (Exact.le_trans hback hhigh)

/-- Where the end is finite, so is every beginning in front of it. -/
theorem isFinite_of_endFrom {overlap cursor : Float} {lengths : List Float}
    (h : Scalar.isFinite (endFrom overlap cursor lengths) = true) :
    Scalar.isFinite cursor = true ∧
      ∀ start ∈ startsFrom overlap cursor lengths, Scalar.isFinite start = true := by
  induction lengths generalizing cursor with
  | nil => exact ⟨h, by simp [startsFrom]⟩
  | cons length rest ih =>
      have hcursor : Scalar.isFinite cursor = true := by
        cases rest with
        | nil => exact (isFinite_of_add h).1
        | cons second rest => exact (isFinite_of_add (isFinite_of_sub (ih h).1)).1
      refine ⟨hcursor, ?_⟩
      intro start hstart
      rcases List.mem_cons.mp hstart with rfl | hrest
      · exact hcursor
      · cases rest with
        | nil => cases hrest
        | cons second rest => exact (ih h).2 start hrest

end Schedule

/-! ## The layout -/

/-- The numbers of a plan that nothing checks are finite: the times of its captions and
the volume of its music.  What its clips hold is checked before anything is placed. -/
structure Plan.Finite (plan : Plan Float) : Prop where
  captions : ∀ overlay ∈ plan.overlays,
    Scalar.isFinite overlay.start = true ∧ Scalar.isFinite overlay.duration = true
  volume : ∀ music ∈ plan.music, ∀ volume ∈ music.volume, Scalar.isFinite volume = true

namespace Layout

open Double

/-- Every time that a layout computes is finite. -/
structure FiniteTimes (layout : Layout Float) : Prop where
  video : Scalar.isFinite layout.videoDuration = true
  raw : Scalar.isFinite layout.rawDuration = true
  clips : ∀ clip ∈ layout.clips, Scalar.isFinite clip.start = true
  captions : ∀ caption ∈ layout.overlays,
    Scalar.isFinite caption.start = true ∧ Scalar.isFinite caption.duration = true
  background : ∀ background ∈ layout.background,
    Scalar.isFinite background.start = true ∧ Scalar.isFinite background.length = true

/-- The overlap of a mode is a time, and shorter than any clip of the mode. -/
theorem exists_overlap (modeKey : String) :
    ∃ w : ℚ, 0 < w ∧ exact (overlapUnder Float modeKey) = .finite w ∧
      ∀ length, Schedule.lengthFault? (overlapUnder Float modeKey) length = none →
        Schedule.AtLeast w length := by
  obtain ⟨w, hroomy⟩ := exists_roomy (leavesRoom_double modeKey)
  refine ⟨w, hroomy.pos, hroomy.toExact_eq, ?_⟩
  intro length haccepted
  obtain ⟨q, hq, hexact⟩ := hroomy.holds length haccepted
  exact ⟨q, by linarith [hroomy.pos], hexact⟩

variable {plan : Plan Float} {modeKey platformKey : String} {config : CompilerConfig Float}
  {layout : Layout Float}

/-- A video lasts, and no longer than its footage. -/
theorem exists_video (h : computeAs plan modeKey platformKey config = .ok layout) :
    ∃ w : ℚ, 0 < w ∧ .finite w ≤ exact layout.videoDuration ∧
      exact layout.videoDuration ≤ exact layout.rawDuration := by
  obtain ⟨w, hpos, hw, hroomy⟩ := exists_overlap modeKey
  obtain ⟨_, hne, hclips, rfl⟩ := computeAs_eq_ok_iff.mp h
  have hlengths : ∀ length ∈ plan.clips.map Clip.length, Schedule.AtLeast w length := by
    intro length hlength
    obtain ⟨clip, hclip, rfl⟩ := List.mem_map.mp hlength
    exact hroomy clip.length (hclips clip hclip).2
  have hzero : exact (0 : Float) = .finite 0 := exact_zero
  have hstart : .finite 0 ≤ exact (0 : Float) := Exact.le_of_eq hzero.symm (by simp)
  have hsame : exact (0 : Float) ≤ exact (0 : Float) := Exact.le_refl (by rw [hzero]; simp)
  exact ⟨w, hpos, Schedule.endFrom_le hw hpos.le hlengths (by simpa using hne) hstart hsame⟩

/-- The video of a layout lasts, endlessly at worst. -/
theorem videoDuration_pos (h : computeAs plan modeKey platformKey config = .ok layout) :
    0 < layout.videoDuration := by
  obtain ⟨w, hpos, hvideo, _⟩ := exists_video h
  have hzero : exact (0 : Float) = .finite 0 := exact_zero
  rw [lt_iff, hzero]
  cases hvalue : exact layout.videoDuration with
  | finite q =>
      rw [hvalue, Exact.finite_le_finite] at hvideo
      exact Exact.finite_lt_finite.mpr (hpos.trans_le hvideo)
  | infinite s =>
      rw [hvalue, Exact.finite_le_infinite] at hvideo
      exact Exact.finite_lt_infinite.mpr hvideo
  | nan =>
      rw [hvalue] at hvideo
      exact absurd hvideo (Exact.not_le_nan _)

/-- The overlaps never make a video longer than its footage, however the sums round. -/
theorem videoDuration_le (h : computeAs plan modeKey platformKey config = .ok layout) :
    layout.videoDuration ≤ layout.rawDuration := by
  obtain ⟨_, _, _, hraw⟩ := exists_video h
  exact le_iff.mpr hraw

/-- So there is always a background, and it goes on behind the video. -/
theorem background_eq_some (h : computeAs plan modeKey platformKey config = .ok layout) :
    layout.background = some ⟨((Mode.resolve modeKey).profile (α := Float)).backgroundColor, 0,
      layout.videoDuration + config.backgroundTail⟩ := by
  rw [background_eq h]
  exact if_pos (videoDuration_pos h)

/-- No clip of a video that ends begins at no finite time. -/
theorem isFinite_start (h : computeAs plan modeKey platformKey config = .ok layout)
    (hvideo : Scalar.isFinite layout.videoDuration = true) :
    ∀ clip ∈ layout.clips, Scalar.isFinite clip.start = true := by
  intro clip hclip
  obtain ⟨k, hk⟩ := List.mem_iff_getElem?.mp hclip
  obtain ⟨_, _, hstart, _⟩ := exists_clip_of_getElem? h hk
  obtain ⟨_, _, _, rfl⟩ := computeAs_eq_ok_iff.mp h
  exact (Schedule.isFinite_of_endFrom hvideo).2 _ (List.mem_of_getElem? hstart)

/-- The captions of a plan stay finite, whether its video ends or not. -/
theorem isFinite_caption (hplan : plan.Finite)
    (h : computeAs plan modeKey platformKey config = .ok layout) :
    ∀ caption ∈ layout.overlays,
      Scalar.isFinite caption.start = true ∧ Scalar.isFinite caption.duration = true := by
  intro caption hcaption
  obtain ⟨k, hk⟩ := List.mem_iff_getElem?.mp hcaption
  rw [overlays_getElem? h] at hk
  obtain ⟨overlay, hoverlay, rfl⟩ := Option.map_eq_some_iff.mp hk
  obtain ⟨hstart, hduration⟩ := hplan.captions overlay (List.mem_of_getElem? hoverlay)
  obtain ⟨hplaced, hshown⟩ := Clamp.isTime_place
    (Clamp.sound_ofConfig (computeAs_eq_ok_iff.mp h).1) layout.videoDuration
    (requestedSpan overlay) hstart hduration
  exact ⟨hplaced.isFinite, hshown.isFinite⟩

/-- Two sums decide whether the times of a layout are finite. -/
theorem finiteTimes_iff (hplan : plan.Finite)
    (h : computeAs plan modeKey platformKey config = .ok layout) :
    FiniteTimes layout ↔ Scalar.isFinite layout.rawDuration = true ∧
      Scalar.isFinite (layout.videoDuration + config.backgroundTail) = true := by
  have hbackground := background_eq_some h
  constructor
  · intro hfinite
    exact ⟨hfinite.raw, (hfinite.background _ hbackground).2⟩
  · rintro ⟨hraw, htail⟩
    have hvideo := (isFinite_of_add htail).1
    refine ⟨hvideo, hraw, isFinite_start h hvideo, isFinite_caption hplan h, ?_⟩
    intro background hb
    obtain rfl : _ = background := Option.some.inj (hbackground.symm.trans hb)
    exact ⟨isTime_zero.isFinite, htail⟩

/-- Footage that adds up to a finite double, a tail included, gives finite times. -/
theorem finiteTimes_of_footage (hplan : plan.Finite)
    (h : computeAs plan modeKey platformKey config = .ok layout)
    (hfootage : Scalar.isFinite (plan.rawDuration + config.backgroundTail) = true) :
    FiniteTimes layout := by
  have hraw : layout.rawDuration = plan.rawDuration := by
    obtain ⟨_, _, _, rfl⟩ := computeAs_eq_ok_iff.mp h
    rfl
  rw [← hraw] at hfootage
  obtain ⟨hfinite, htail⟩ := isFinite_of_add hfootage
  refine (finiteTimes_iff hplan h).mpr ⟨hfinite, ?_⟩
  obtain ⟨w, hpos, hvideo, hle⟩ := exists_video h
  obtain ⟨t, ht⟩ := isFinite_iff.mp htail
  have hlow : config.backgroundTail ≤ layout.videoDuration + config.backgroundTail := by
    have hahead : exact config.backgroundTail ≤ closest (.finite w + .finite t) := by
      rw [← closest_exact, ht]
      exact closest_mono (Exact.finite_le_finite.mpr (by linarith))
    rw [le_iff, exact_sum layout.videoDuration, ht]
    rw [ht] at hahead
    exact Exact.le_trans hahead (closest_mono (Exact.add_le_add_right hvideo t))
  have hhigh : layout.videoDuration + config.backgroundTail
      ≤ layout.rawDuration + config.backgroundTail := by
    rw [le_iff, exact_sum, exact_sum, ht]
    exact closest_mono (Exact.add_le_add_right hle t)
  exact isFinite_of_between htail hfootage hlow hhigh

end Layout

end Montage
