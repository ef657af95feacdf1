import Montage.Proofs.Payload.Coverage

/-!
# Captions in frames

A clamp keeps captions inside the video in seconds.  In frames a caption is shown
for one frame at least, and that frame may be one too many: a caption whose
beginning is nearest to the end of the video has no frame of the video left.
`Contained.inside_iff` says that this is the only way out, and that a caption is
never more than one frame off.

A caption that lasts a little more than half a frame has a frame left
(`Contained.roomy`), so the shortest time of the settings decides whether a
caption can stick out at all.
-/

namespace Montage

/-- The first frame behind a caption. -/
def FrameOverlay.stop (caption : FrameOverlay) : ℕ := caption.span.stop

/-- What is known of a caption in frames that comes from a caption in a layout,
in a payload of `total` frames.  Its times are read off the clock that the
payload was made with. -/
structure Contained (clock : Clock) (total : ℕ) (placed : OverlayPlacement Exact)
    (caption : FrameOverlay) : Prop where
  shown : 1 ≤ caption.span.duration
  fades : caption.fadeIn + caption.fadeOut ≤ caption.span.duration
  inside_iff : caption.stop ≤ total ↔ clock.frame placed.start < total
  overshoot : caption.stop ≤ total + 1
  /-- More than half a frame, in a video of which no frame is cut off. -/
  roomy : ∀ d : ℚ, placed.duration = .finite d → 1 / 2 + 1 / 10 ^ 9 < d * clock.fps →
    total < frameLimit → caption.stop ≤ total

namespace FramePayload

section Fades

variable {α : Type} [Scalar α] (clock : Clock) (placed : OverlayPlacement α)

/-- A caption is shown for one frame at least. -/
theorem one_le_duration : 1 ≤ (overlayOf clock placed).span.duration := by
  exact le_max_right _ _

/-- The two fades of a caption do not overlap. -/
theorem fades_le_duration :
    (overlayOf clock placed).fadeIn + (overlayOf clock placed).fadeOut
      ≤ (overlayOf clock placed).span.duration := by
  simp only [overlayOf, fadeFrames]
  omega

end Fades

section Edges

variable (clock : Clock) {placed : OverlayPlacement Exact} {minimum video s d : ℚ}

/-- The first frame behind a caption, from its edges in seconds. -/
theorem stop_overlayOf (hs : placed.start = .finite s) (hd : placed.duration = .finite d)
    (hnonneg : 0 ≤ d) :
    (overlayOf clock placed).stop = max (clock.frameAt (s + d)) (clock.frameAt s + 1) := by
  have hmono : clock.frameAt s ≤ clock.frameAt (s + d) := clock.frameAt_mono (by linarith)
  change clock.frame placed.start + max (clock.span placed.start placed.duration) 1 = _
  rw [Clock.span, hs, hd, Exact.finite_add_finite, Clock.frame_finite, Clock.frame_finite]
  omega

/-- More than half a frame in front of the end there is a frame left. -/
theorem frameAt_lt_coveringAt (hs : 0 ≤ s) (hsd : s + d ≤ video)
    (hlong : 1 / 2 + 1 / 10 ^ 9 < d * clock.fps) (hlimit : clock.coveringAt video < frameLimit) :
    clock.frameAt s < clock.coveringAt video := by
  have hfps : (0 : ℚ) < clock.fps := clock.cast_fps_pos
  have hd : 0 < d := by
    by_contra hneg
    have hle : d * clock.fps ≤ 0 := mul_nonpos_of_nonpos_of_nonneg (not_lt.mp hneg) hfps.le
    linarith
  have hticks : clock.ticksAt s + (1 / 2 + 1 / 10 ^ 9) < clock.ticksAt video := by
    have hscaled : (s + d) * clock.fps ≤ video * clock.fps :=
      mul_le_mul_of_nonneg_right hsd hfps.le
    rw [clock.ticksAt_of_nonneg hs, clock.ticksAt_of_nonneg (by linarith)]
    linarith
  have hcovering : clock.coveringAt video = ⌈clock.ticksAt video - 1 / 10 ^ 9⌉₊ := by
    rw [Clock.coveringAt] at hlimit ⊢
    omega
  have hceil := Nat.le_ceil (clock.ticksAt video - 1 / 10 ^ 9)
  have hfloor : ⌊clock.ticksAt s + 1 / 2⌋₊ < ⌈clock.ticksAt video - 1 / 10 ^ 9⌉₊ := by
    rw [Nat.floor_lt (by linarith [clock.ticksAt_nonneg s])]
    linarith
  rw [hcovering]
  exact (min_le_left _ _).trans_lt hfloor

/-- A caption that is inside the video in seconds is contained in it in frames,
up to the one frame that it may have too many. -/
theorem contained_overlayOf (hs : placed.start = .finite s) (hd : placed.duration = .finite d)
    (hfits : Clamp.Fits minimum video s d) (hminimum : 0 ≤ minimum) (hvideo : minimum ≤ video) :
    Contained clock (clock.coveringAt video) placed (overlayOf clock placed) := by
  have hnonneg : 0 ≤ d := hminimum.trans hfits.minimum_le
  have hstop := stop_overlayOf clock hs hd hnonneg
  have hsd : s + d ≤ video := hfits.stop_le hvideo
  have hend : clock.frameAt (s + d) ≤ clock.coveringAt video :=
    (clock.frameAt_mono hsd).trans (clock.frameAt_le_coveringAt video)
  have hbegin : clock.frameAt s ≤ clock.frameAt (s + d) := clock.frameAt_mono (by linarith)
  have hinside : (overlayOf clock placed).stop ≤ clock.coveringAt video ↔
      clock.frame placed.start < clock.coveringAt video := by
    rw [hstop, hs, Clock.frame_finite]
    omega
  refine ⟨one_le_duration clock placed, fades_le_duration clock placed, hinside, ?_, ?_⟩
  · rw [hstop]
    omega
  · intro d' hd' hlong hlimit
    obtain rfl : d' = d := by
      rw [hd] at hd'
      exact (Exact.finite.inj hd').symm
    rw [hinside, hs, Clock.frame_finite]
    exact frameAt_lt_coveringAt clock hfits.start_nonneg hsd hlong hlimit

end Edges

end FramePayload

/-- **Captions in frames.**  In exact arithmetic, and where the video is long
enough for the shortest caption, every caption of the payload in frames is shown,
its fades do not overlap, and it is inside the video exactly when the frame at
which it begins is; otherwise it sticks out by one frame.  None sticks out if the
shortest caption takes a little more than half a frame. -/
theorem Compiler.framesAs_captions {compiler : Compiler Exact} {plan : Plan Exact}
    {modeKey platformKey : String} {layout : Layout Exact}
    (h : compiler.layoutAs plan modeKey platformKey = .ok layout)
    (hfits : compiler.config.minOverlay ≤ layout.videoDuration) :
    ∃ payload, compiler.framesAs plan modeKey platformKey = .ok payload ∧
      List.Forall₂ (Contained compiler.clock payload.duration) layout.overlays
        payload.overlays ∧
      ∀ m : ℚ, compiler.config.minOverlay = .finite m →
        1 / 2 + 1 / 10 ^ 9 < m * compiler.clock.fps → payload.duration < frameLimit →
          ∀ caption ∈ payload.overlays, caption.stop ≤ payload.duration := by
  refine ⟨compiler.framesOf layout, framesAs_eq_ok_iff.mpr ⟨layout, h, rfl⟩, ?_⟩
  obtain ⟨overlap, lengths, run⟩ := Layout.exists_run h
  obtain ⟨minimum, hmin, hminimum, hoverlays⟩ :=
    Layout.exists_fits h run.video_eq run.stop_last_pos.le
  rw [hminimum, run.video_eq, Exact.finite_le_finite] at hfits
  have hduration : (compiler.framesOf layout).duration = compiler.clock.coveringAt
      (Schedule.stop overlap lengths (lengths.length - 1)) := by
    change compiler.clock.covering layout.videoDuration = _
    rw [run.video_eq, Clock.covering_finite]
  have hcaptions : (compiler.framesOf layout).overlays
      = layout.overlays.map (FramePayload.overlayOf compiler.clock) := rfl
  have hcontained : ∀ placed ∈ layout.overlays, Contained compiler.clock
      (compiler.framesOf layout).duration placed
      (FramePayload.overlayOf compiler.clock placed) := by
    intro placed hplaced
    obtain ⟨s, d, hs, hd, hin⟩ := hoverlays placed hplaced
    rw [hduration]
    exact FramePayload.contained_overlayOf compiler.clock hs hd hin hmin hfits
  rw [hcaptions]
  constructor
  · rw [List.forall₂_map_right_iff, List.forall₂_same]
    exact hcontained
  · intro m hm hlong hlimit caption hcaption
    obtain rfl : m = minimum := by
      rw [hminimum] at hm
      exact (Exact.finite.inj hm).symm
    obtain ⟨placed, hplaced, rfl⟩ := List.mem_map.mp hcaption
    obtain ⟨s, d, _, hd, hin⟩ := hoverlays placed hplaced
    refine (hcontained placed hplaced).roomy d hd ?_ hlimit
    exact hlong.trans_le (mul_le_mul_of_nonneg_right hin.minimum_le (Nat.cast_nonneg _))

/-- The captions of the sample end within the video at the standard frame rate. -/
theorem Compiler.framesAs_captions_inside :
    ∃ layout, standardExact.layoutAs (.sample Exact) "vlog" "tiktok" = .ok layout ∧
      standardExact.config.minOverlay ≤ layout.videoDuration ∧
      ∃ payload, standardExact.framesAs (.sample Exact) "vlog" "tiktok" = .ok payload ∧
        List.Forall₂ (Contained standardExact.clock payload.duration) layout.overlays
          payload.overlays ∧
        ∀ m : ℚ, standardExact.config.minOverlay = .finite m →
          1 / 2 + 1 / 10 ^ 9 < m * standardExact.clock.fps → payload.duration < frameLimit →
            ∀ caption ∈ payload.overlays, caption.stop ≤ payload.duration := by
  have hcompiles : (standardExact.layoutAs (.sample Exact) "vlog" "tiktok").toOption.any
      (fun layout => standardExact.config.minOverlay ≤ layout.videoDuration) = true := by
    decide +kernel
  obtain ⟨layout, hlayout, htest⟩ := exists_of_any hcompiles
  have hfits := of_decide_eq_true htest
  exact ⟨layout, hlayout, hfits, framesAs_captions hlayout hfits⟩

/-- Four seconds of footage, with a caption on the last half second. -/
def Plan.lateCaption : Plan Exact :=
  ((Plan.empty "vlog" "youtube").withClip (.ofLength "clip" 4)).withOverlay
    (.ofSpan "The end" 3.5 0.5)

/-- The compiler with the standard settings, but at one frame per second. -/
def Compiler.slowExact : Compiler Exact where
  config := CompilerConfig.standard.withFps 1
  sound := Option.isNone_iff_eq_none.mp (by decide +kernel)

/-- At one frame per second the late caption begins behind the last of the four
frames of its video, although in seconds it ends with the video. -/
theorem Compiler.late_caption_sticks_out :
    ∃ layout payload, slowExact.layoutAs .lateCaption "vlog" "youtube" = .ok layout ∧
      slowExact.config.minOverlay ≤ layout.videoDuration ∧
      slowExact.framesAs .lateCaption "vlog" "youtube" = .ok payload ∧
      payload.duration = 4 ∧ payload.overlays.map FrameOverlay.span = [⟨4, 1⟩] ∧
      ¬ ∀ caption ∈ payload.overlays, caption.stop ≤ payload.duration := by
  have hlayout : (slowExact.layoutAs .lateCaption "vlog" "youtube").toOption.any
      (fun layout => slowExact.config.minOverlay ≤ layout.videoDuration &&
        (slowExact.framesOf layout).duration == 4 &&
        (slowExact.framesOf layout).overlays.map FrameOverlay.span == [⟨4, 1⟩]) = true := by
    decide +kernel
  obtain ⟨layout, hlayout, htest⟩ := exists_of_any hlayout
  simp only [Bool.and_eq_true, decide_eq_true_eq, beq_iff_eq] at htest
  obtain ⟨⟨hfits, hduration⟩, hspans⟩ := htest
  refine ⟨layout, slowExact.framesOf layout, hlayout, hfits,
    framesAs_eq_ok_iff.mpr ⟨layout, hlayout, rfl⟩, hduration, hspans, ?_⟩
  intro hall
  obtain ⟨caption, hcaption, hspan⟩ : ∃ caption ∈ (slowExact.framesOf layout).overlays,
      caption.span = ⟨4, 1⟩ := by
    rw [← List.mem_map, hspans]
    exact List.mem_singleton_self _
  have hle := hall caption hcaption
  rw [hduration, FrameOverlay.stop, hspan] at hle
  exact absurd hle (by decide)

end Montage
