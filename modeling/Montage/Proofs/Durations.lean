import Montage.Proofs.Clock
import Montage.Proofs.Compiler

/-!
# How long a video lasts

A schedule is computed with a running start: each clip begins where the one in front of it
ends, less one overlap.  In exact arithmetic everything in a schedule has a closed form.  With
`n` clips and an overlap of `w`,

* the clip at index `i` begins at the sum of the first `i` lengths, less `i` overlaps;
* the video lasts for the sum of all lengths, less `n - 1` overlaps;
* each clip begins more than a second behind the one in front of it, or nearly so.

`Schedule.ClosedForm` collects this, and `Schedule.closedForm_ofRationals` proves it of
every schedule whose lengths leave room for two overlaps.  A layout keeps its schedule unchanged
(`Layout.estimate_times`), so its summary and the length of its payload in frames have closed forms
too.
-/

namespace Montage

namespace Schedule

/-- A schedule of `lengths` of which neighbours share `overlap`. -/
structure ClosedForm (schedule : Schedule Exact) (overlap : ℚ) (lengths : List ℚ) : Prop where
  lengths_eq : schedule.lengths = lengths.map .finite
  count : schedule.starts.length = lengths.length
  start_eq : ∀ i < lengths.length,
    schedule.starts[i]? = some (.finite ((lengths.take i).sum - i * overlap))
  /-- The video ends where its last clip ends. -/
  video_last : ∀ {start length : Exact}, schedule.starts.getLast? = some start →
    schedule.lengths.getLast? = some length → schedule.videoDuration = start + length
  video_eq : schedule.videoDuration = .finite (lengths.sum - (lengths.length - 1) * overlap)
  raw_eq : schedule.rawDuration = .finite lengths.sum
  overlap_eq : schedule.overlapSeconds = .finite ((lengths.length - 1) * overlap)
  growing : ∀ {i : ℕ} {a b : Exact}, schedule.starts[i]? = some a →
    schedule.starts[i + 1]? = some b → a + .finite (overlap + 1 - 1 / 10 ^ 9) ≤ b
  ascending : schedule.starts.Pairwise (· < ·)
  shorter_iff : schedule.videoDuration < schedule.rawDuration ↔
    1 < lengths.length ∧ 0 < overlap

section Offsets

variable {overlap : ℚ} {lengths : List ℚ}

/-- A clip begins a second behind the overlap with the one in front of it, less what is
forgiven. -/
theorem offset_add_le (hroomy : ∀ length ∈ lengths, 2 * overlap + 1 ≤ length + 1 / 10 ^ 9) {k : ℕ}
    (hk : k < lengths.length) :
    offset overlap lengths k + (overlap + 1 - 1 / 10 ^ 9) ≤ offset overlap lengths (k + 1) := by
  have hroom := hroomy _ (List.getElem_mem hk)
  rw [offset_succ overlap hk, stop, List.getD_eq_getElem _ _ hk]
  linarith

/-- Clips with room between their transitions begin one after the other. -/
theorem offset_lt_offset (hoverlap : 0 ≤ overlap)
    (hroomy : ∀ length ∈ lengths, 2 * overlap + 1 ≤ length + 1 / 10 ^ 9) {j k : ℕ} (hjk : j < k)
    (hk : k < lengths.length) : offset overlap lengths j < offset overlap lengths k := by
  have hstep : ∀ i < lengths.length, offset overlap lengths i < offset overlap lengths (i + 1) := by
    intro i hi
    have hgrows := offset_add_le hroomy hi
    linarith
  induction k, hjk using Nat.le_induction with
  | base => exact hstep j (by omega)
  | succ k hjk ih => exact (ih (by omega)).trans (hstep k (by omega))

/-- The end of the last clip, from the sums alone. -/
theorem stop_last (overlap : ℚ) (hne : lengths ≠ []) :
    stop overlap lengths (lengths.length - 1) = lengths.sum - (lengths.length - 1) * overlap := by
  have hlast : lengths.length - 1 < lengths.length :=
    Nat.sub_lt (List.length_pos_iff.mpr hne) one_pos
  have hsucc : lengths.length - 1 + 1 = lengths.length := by omega
  have hoffset := offset_succ overlap hlast
  rw [hsucc, offset, List.take_length] at hoffset
  linarith

end Offsets

/-- The schedule of rational lengths. -/
def ofRationals (overlap : ℚ) (lengths : List ℚ) : Schedule Exact :=
  ofLengths (.finite overlap) (lengths.map .finite)

section Rationals

variable (overlap : ℚ) {lengths : List ℚ}

theorem length_starts (lengths : List ℚ) :
    (ofRationals overlap lengths).starts.length = lengths.length := by
  rw [ofRationals, ofLengths, startsFrom_length, List.length_map]

/-- A clip begins at the sum of the lengths in front of it, less the overlaps. -/
theorem starts_getElem? {k : ℕ} (hk : k < lengths.length) :
    (ofRationals overlap lengths).starts[k]? = some (.finite (offset overlap lengths k)) := by
  change (startsFrom (.finite overlap) (.finite ((0 : ℕ) : ℚ)) (lengths.map Exact.finite))[k]? = _
  rw [startsFrom_finite, List.getElem?_map, List.getElem?_range hk, Nat.cast_zero]
  simp

/-- Every beginning is that of a clip. -/
theorem start_of_getElem? {k : ℕ} {start : Exact}
    (h : (ofRationals overlap lengths).starts[k]? = some start) :
    k < lengths.length ∧ start = .finite (offset overlap lengths k) := by
  have hk : k < lengths.length :=
    length_starts overlap lengths ▸ (List.getElem?_eq_some_iff.mp h).1
  rw [starts_getElem? overlap hk, Option.some.injEq] at h
  exact ⟨hk, h.symm⟩

/-- The video ends where its last clip ends. -/
theorem videoDuration_of_last {start length : Exact}
    (hstart : (ofRationals overlap lengths).starts.getLast? = some start)
    (hlength : (ofRationals overlap lengths).lengths.getLast? = some length) :
    (ofRationals overlap lengths).videoDuration = start + length := by
  obtain ⟨hlast, -⟩ : lengths.length - 1 < lengths.length ∧ _ := by
    rw [List.getLast?_eq_getElem?, length_starts] at hstart
    exact start_of_getElem? overlap hstart
  rw [List.getLast?_eq_getElem?, length_starts] at hstart
  rw [List.getLast?_eq_getElem?] at hlength
  change (lengths.map Exact.finite)[(lengths.map Exact.finite).length - 1]? = _ at hlength
  rw [List.length_map] at hlength
  refine endFrom_eq ?_ hstart hlength
  rw [List.length_map]
  omega

/-- The video lasts for the sum of the lengths, less one overlap for every join. -/
theorem videoDuration_ofRationals (hne : lengths ≠ []) :
    (ofRationals overlap lengths).videoDuration
      = .finite (lengths.sum - (lengths.length - 1) * overlap) := by
  have hlast : lengths.length - 1 < lengths.length :=
    Nat.sub_lt (List.length_pos_iff.mpr hne) one_pos
  have hstart : (ofRationals overlap lengths).starts.getLast?
      = some (.finite (offset overlap lengths (lengths.length - 1))) := by
    rw [List.getLast?_eq_getElem?, length_starts, starts_getElem? overlap hlast]
  have hlength : (ofRationals overlap lengths).lengths.getLast?
      = some (.finite (lengths.getD (lengths.length - 1) 0)) := by
    change (lengths.map Exact.finite).getLast? = _
    rw [List.getLast?_eq_getElem?, List.length_map, List.getElem?_map,
      List.getElem?_eq_getElem hlast, List.getD_eq_getElem _ _ hlast, Option.map_some]
  rw [videoDuration_of_last overlap hstart hlength, Exact.finite_add_finite,
    ← stop_last overlap hne, stop]

theorem rawDuration_ofRationals (lengths : List ℚ) :
    (ofRationals overlap lengths).rawDuration = .finite lengths.sum :=
  Exact.sum_finite lengths

end Rationals

/-- Every schedule with room for its overlaps has the closed form. -/
theorem closedForm_ofRationals {overlap : ℚ} {lengths : List ℚ} (hoverlap : 0 ≤ overlap)
    (hne : lengths ≠ [])
    (hroomy : ∀ length ∈ lengths, 2 * overlap + 1 ≤ length + 1 / 10 ^ 9) :
    ClosedForm (ofRationals overlap lengths) overlap lengths := by
  have hvideo := videoDuration_ofRationals overlap hne
  have hraw := rawDuration_ofRationals overlap lengths
  refine ⟨rfl, length_starts overlap lengths, ?_, videoDuration_of_last overlap, hvideo, hraw, ?_,
    ?_, ?_, ?_⟩
  · intro i hi
    exact starts_getElem? overlap hi
  · rw [overlapSeconds, hvideo, hraw, Exact.finite_sub_finite, sub_sub_cancel]
  · intro i a b ha hb
    obtain ⟨hi, rfl⟩ := start_of_getElem? overlap ha
    obtain ⟨-, rfl⟩ := start_of_getElem? overlap hb
    rw [Exact.finite_add_finite, Exact.finite_le_finite]
    exact offset_add_le hroomy hi
  · rw [List.pairwise_iff_getElem]
    intro i j hi hj hij
    obtain ⟨-, ha⟩ := start_of_getElem? overlap (List.getElem?_eq_getElem hi)
    obtain ⟨hj', hb⟩ := start_of_getElem? overlap (List.getElem?_eq_getElem hj)
    rw [ha, hb, Exact.finite_lt_finite]
    exact offset_lt_offset hoverlap hroomy hij hj'
  · rw [hvideo, hraw, Exact.finite_lt_finite, sub_lt_self_iff]
    constructor
    · intro hshared
      have hpos : 0 < overlap := hoverlap.lt_of_ne fun h => by simp [← h] at hshared
      have hmany := (pos_iff_pos_of_mul_pos hshared).mpr hpos
      exact ⟨by exact_mod_cast sub_pos.mp hmany, hpos⟩
    · rintro ⟨hmany, hpos⟩
      exact mul_pos (sub_pos.mpr (by exact_mod_cast hmany)) hpos

/-- Lengths are accepted only beside a rational overlap: no length leaves room for an endless
one. -/
theorem exists_overlapOf {transition length : Exact}
    (h : lengthFault? (overlapOf transition) length = none) :
    ∃ overlap : ℚ, 0 ≤ overlap ∧ overlapOf transition = .finite overlap := by
  cases transition with
  | finite t => exact ⟨max 0 t, le_max_left 0 t, by simp [overlapOf]⟩
  | infinite negative =>
      cases negative with
      | true => exact ⟨0, le_rfl, rfl⟩
      | false =>
          obtain ⟨hfinite, -, hlong⟩ := lengthFault?_eq_none_iff.mp h
          obtain ⟨l, rfl⟩ := Exact.isFinite_iff.mp hfinite
          have hendless : minLength (overlapOf (.infinite false)) = Exact.infinite false := by
            decide +kernel
          rw [hendless, Exact.ofScientific_eq, Exact.finite_add_finite] at hlong
          exact absurd (Exact.finite_lt_infinite.mpr rfl) hlong
  | nan => exact ⟨0, le_rfl, rfl⟩

/-- Every schedule that is estimated has the closed form. -/
theorem closedForm_of_estimate {transition : Exact} {lengths : List Exact}
    {schedule : Schedule Exact} (h : estimate transition lengths = .ok schedule) :
    ∃ (overlap : ℚ) (ls : List ℚ), 0 ≤ overlap ∧ overlapOf transition = .finite overlap ∧
      ls ≠ [] ∧ lengths = ls.map .finite ∧ schedule.ClosedForm overlap ls := by
  obtain ⟨hfault, rfl⟩ := estimate_eq_ok_iff.mp h
  obtain ⟨hne, haccepted⟩ := fault?_eq_none_iff.mp hfault
  obtain ⟨length, hlength⟩ := List.exists_mem_of_ne_nil lengths hne
  obtain ⟨overlap, hnonneg, hoverlap⟩ := exists_overlapOf (haccepted length hlength)
  rw [hoverlap] at haccepted ⊢
  obtain ⟨ls, rfl, hroomy⟩ := Layout.exists_rationals_of_lengthFault? haccepted
  have hls : ls ≠ [] := by simpa using hne
  exact ⟨overlap, ls, hnonneg, rfl, hls, rfl, closedForm_ofRationals hnonneg hls hroomy⟩

end Schedule

namespace Layout

section Times

variable {α : Type}

/-- The schedule that a layout keeps. -/
def times (layout : Layout α) : Schedule α where
  starts := layout.clips.map ClipPlacement.start
  lengths := layout.clips.map ClipPlacement.length
  videoDuration := layout.videoDuration
  rawDuration := layout.rawDuration

/-- Placed clips have the beginnings of the schedule and the lengths of the plan. -/
theorem map_start_length_placeClips (profile : ModeProfile α) (volume : α) (index : ℕ)
    {clips : List (Clip α)} {starts : List α} (h : starts.length = clips.length) :
    (placeClips profile volume index clips starts).map ClipPlacement.start = starts ∧
      (placeClips profile volume index clips starts).map ClipPlacement.length
        = clips.map Clip.length := by
  induction clips generalizing index starts with
  | nil =>
      obtain rfl := List.eq_nil_of_length_eq_zero h
      exact ⟨rfl, rfl⟩
  | cons clip clips ih =>
      cases starts with
      | nil => cases h
      | cons start starts =>
          obtain ⟨hstarts, hlengths⟩ := ih (index + 1) (Nat.succ.inj h)
          exact ⟨congrArg (start :: ·) hstarts, congrArg (clip.length :: ·) hlengths⟩

variable [Scalar α] {plan : Plan α} {modeKey platformKey : String} {config : CompilerConfig α}
  {layout : Layout α}

/-- A layout keeps the schedule of its plan as it was estimated. -/
theorem estimate_times (h : computeAs plan modeKey platformKey config = .ok layout) :
    Schedule.estimate layout.transitionDuration (plan.clips.map Clip.length)
      = .ok layout.times := by
  obtain ⟨-, hne, haccepted, hlayout⟩ := computeAs_eq_ok_iff.mp h
  rw [transitionDuration_eq h]
  refine Schedule.estimate_eq_ok_iff.mpr ⟨?_, ?_⟩
  · refine Schedule.fault?_eq_none_iff.mpr ⟨by simpa using hne, ?_⟩
    intro length hlength
    obtain ⟨clip, hclip, rfl⟩ := List.mem_map.mp hlength
    exact (haccepted clip hclip).2
  · have hcount : (Schedule.startsFrom (overlapUnder α modeKey) 0
        (plan.clips.map Clip.length)).length = plan.clips.length := by
      rw [Schedule.startsFrom_length, List.length_map]
    obtain ⟨hstarts, hlengths⟩ := map_start_length_placeClips (Mode.resolve modeKey).profile
      (clipVolume (Mode.resolve modeKey).profile config plan) 0 hcount
    rw [hlayout, times]
    exact congrArg₂ (fun starts lengths => Schedule.mk starts lengths _ _) hstarts hlengths

end Times

end Layout

namespace Compiler

variable {compiler : Compiler Exact} {plan : Plan Exact} {modeKey platformKey : String}
  {layout : Layout Exact}

/-- What is known of the durations of a plan that compiles: those of its layout are the
estimated ones, in closed form, and its summary and its payload in frames repeat them. -/
structure Timed (compiler : Compiler Exact) (layout : Layout Exact) (overlap : ℚ)
    (lengths : List ℚ) : Prop where
  times : layout.times.ClosedForm overlap lengths
  summary_clips : layout.summary.clipCount = lengths.length
  summary_raw : layout.summary.rawDuration = .finite lengths.sum
  summary_video : layout.summary.videoDuration
    = .finite (lengths.sum - (lengths.length - 1) * overlap)
  summary_overlap : layout.summary.overlap = .finite ((lengths.length - 1) * overlap)
  frames : (compiler.framesOf layout).duration
    = min ⌈(lengths.sum - (lengths.length - 1) * overlap) * compiler.config.fps - 1 / 10 ^ 9⌉₊
        frameLimit

/-- The closed form of a schedule gives the times of its layout, its summary and the length
of its payload in frames. -/
theorem timed_of_closedForm {overlap : ℚ} {lengths : List ℚ}
    (h : layout.times.ClosedForm overlap lengths) (hpos : 0 < layout.videoDuration) :
    Timed compiler layout overlap lengths := by
  have hvideo : layout.videoDuration = .finite (lengths.sum - (lengths.length - 1) * overlap) :=
    h.video_eq
  have hnonneg : 0 ≤ lengths.sum - (lengths.length - 1) * overlap := by
    rw [hvideo, Exact.ofNat_eq, Exact.finite_lt_finite, Nat.cast_zero] at hpos
    exact hpos.le
  refine ⟨h, ?_, h.raw_eq, hvideo, h.overlap_eq, ?_⟩
  · rw [← h.count]
    exact (List.length_map _).symm
  · change compiler.clock.covering layout.videoDuration = _
    rw [hvideo, Clock.covering_finite, Clock.coveringAt, Clock.ticksAt_of_nonneg _ hnonneg,
      clock_fps]

/-- **Durations in closed form.**  In exact arithmetic, every schedule that is estimated, for
any transition and any lengths, NaN and the infinities included, has the closed form for the
transition's overlap, which is zero for a negative transition.  Every plan that compiles has a
layout with the schedule that is estimated for its clips; the summary of the layout repeats its
durations, and the payload in frames covers them. -/
theorem durations_closed :
    (∀ (transition : Exact) (lengths : List Exact) (schedule : Schedule Exact),
      Schedule.estimate transition lengths = .ok schedule →
        ∃ (overlap : ℚ) (ls : List ℚ), 0 ≤ overlap ∧
          Scalar.atLeast 0 transition = .finite overlap ∧ ls ≠ [] ∧ lengths = ls.map .finite ∧
            schedule.ClosedForm overlap ls) ∧
      ∀ (compiler : Compiler Exact) (plan : Plan Exact) (modeKey platformKey : String)
        (layout : Layout Exact), compiler.layoutAs plan modeKey platformKey = .ok layout →
          Schedule.estimate layout.transitionDuration (plan.clips.map Clip.length)
              = .ok layout.times ∧
            compiler.framesAs plan modeKey platformKey = .ok (compiler.framesOf layout) ∧
            ∃ (overlap : ℚ) (ls : List ℚ), 0 < overlap ∧
              layout.transitionDuration = .finite overlap ∧
              plan.clips.map Clip.length = ls.map .finite ∧ Timed compiler layout overlap ls := by
  constructor
  · intro transition lengths schedule h
    exact Schedule.closedForm_of_estimate h
  · intro compiler plan modeKey platformKey layout h
    have hestimate := Layout.estimate_times h
    obtain ⟨w, lengths, run⟩ := Layout.exists_run h
    obtain ⟨overlap, ls, -, hoverlap, -, hls, hclosed⟩ :=
      Schedule.closedForm_of_estimate hestimate
    -- The overlap of a mode is positive, so that it is the duration of its transition.
    have hw : overlap = w := by
      rw [run.overlap_eq, Schedule.overlapOf, Exact.ofNat_eq, Exact.atLeast_finite, Nat.cast_zero,
        max_eq_right run.overlap_pos.le] at hoverlap
      exact (Exact.finite.inj hoverlap).symm
    refine ⟨hestimate, framesAs_eq_ok_iff.mpr ⟨layout, h, rfl⟩, overlap, ls,
      hw ▸ run.overlap_pos, hw ▸ run.overlap_eq, hls, ?_⟩
    exact timed_of_closedForm hclosed run.video_pos

/-- Three clips of four seconds that share half a second last for eleven seconds, and three
clips of a plan. -/
theorem durations_closed_of_three_clips :
    (∃ schedule, Schedule.estimate (.finite (1 / 2)) (List.replicate 3 (Exact.finite 4))
          = .ok schedule ∧ schedule.videoDuration = .finite 11 ∧
        ∃ (overlap : ℚ) (ls : List ℚ), List.replicate 3 (Exact.finite 4) = ls.map .finite ∧
          schedule.ClosedForm overlap ls) ∧
      ∃ layout, standardExact.layoutAs (.sample Exact) "vlog" "tiktok" = .ok layout ∧
        ∃ (overlap : ℚ) (ls : List ℚ),
          (Plan.sample Exact).clips.map Clip.length = ls.map .finite ∧
            Timed standardExact layout overlap ls := by
  obtain ⟨hschedules, hlayouts⟩ := durations_closed
  have hestimated : (Schedule.estimate (.finite (1 / 2))
      (List.replicate 3 (Exact.finite 4))).toOption.any
        (fun schedule => decide (schedule.videoDuration = .finite 11)) = true := by
    decide +kernel
  have hcompiles : (standardExact.layoutAs (.sample Exact) "vlog" "tiktok").toOption.any
      (fun _ => true) = true := by
    decide +kernel
  obtain ⟨schedule, hschedule, htest⟩ := exists_of_any hestimated
  obtain ⟨layout, hlayout, -⟩ := exists_of_any hcompiles
  obtain ⟨overlap, ls, -, -, -, hls, hclosed⟩ := hschedules _ _ schedule hschedule
  obtain ⟨-, -, overlap', ls', -, -, hls', htimed⟩ := hlayouts _ _ _ _ layout hlayout
  exact ⟨⟨schedule, hschedule, of_decide_eq_true htest, overlap, ls, hls, hclosed⟩, layout,
    hlayout, overlap', ls', hls', htimed⟩

end Compiler

end Montage
