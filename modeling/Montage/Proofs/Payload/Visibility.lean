import Montage.Proofs.Compiler
import Montage.Proofs.Payload.Tracks

/-!
# What is on screen when

In exact arithmetic the clips of a payload in seconds lie like shingles: each
shares the overlap of its mode with the next, and no clip meets any other.  Since
a clip is longer than two overlaps by a second, there is a second in its middle
in which it is alone on screen.

`Staged` says this of the clips, and `Stacked` says of the tracks that the
background lies under all of them.
-/

namespace Montage

/-- The end of a clip on a track. -/
def TrackClip.stop {α : Type} [Scalar α] (clip : TrackClip α) : α := clip.start + clip.length

/-- Whether a clip on a track lasts at least as long as another, on both sides. -/
def TrackClip.Spans {α : Type} [Scalar α] (outer inner : TrackClip α) : Prop :=
  outer.start ≤ inner.start ∧ inner.stop ≤ outer.stop

namespace TrackPayload

/-- The place of a clip of the video that is on screen at an instant. -/
def OnScreen (payload : TrackPayload Exact) (t : ℚ) : ℕ → Prop :=
  ShownAt TrackClip.start TrackClip.stop payload.videoClips (.finite t)

/-- Clips of a video of length `video` of which neighbours share `overlap`. -/
structure Staged (payload : TrackPayload Exact) (overlap video : ℚ) : Prop where
  shared : ∀ {k : ℕ} {a b : TrackClip Exact}, payload.videoClips[k]? = some a →
    payload.videoClips[k + 1]? = some b → a.stop = b.start + .finite overlap ∧
      ∀ t : ℚ, (payload.OnScreen t k ∧ payload.OnScreen t (k + 1)) ↔
        b.start ≤ .finite t ∧ Exact.finite t < a.stop
  apart : ∀ {j k : ℕ} {a c : TrackClip Exact}, j + 2 ≤ k → payload.videoClips[j]? = some a →
    payload.videoClips[k]? = some c → a.stop ≤ c.start
  covered : ∀ t : ℚ, 0 ≤ t → t < video → AloneOrPaired (payload.OnScreen t)
  alone : ∀ k < payload.videoClips.length, ∃ since til : ℚ, 1 - 1 / 10 ^ 9 ≤ til - since ∧
    ∀ t : ℚ, since ≤ t → t < til → ∀ j, payload.OnScreen t j ↔ j = k

/-- Tracks on top of each other, the lowest of which lies under everything: the
captions are on top of the video, if the plan has captions, and the background
goes on for a tail behind the video. -/
structure Stacked (payload : TrackPayload Exact) (plan : Plan Exact)
    (config : CompilerConfig Exact) (video : Exact) : Prop where
  roles : payload.tracks.map Track.role =
    (if plan.overlays.isEmpty then [] else [.text]) ++ [.video, .background]
  nonempty : ∀ track ∈ payload.tracks, track.clips ≠ []
  beneath : ∃ page, payload.track? .background = some ⟨.background, [page]⟩ ∧
    page.start = 0 ∧ page.stop = video + config.backgroundTail ∧
    (∀ clip ∈ payload.videoClips, page.Spans clip) ∧
    (config.minOverlay ≤ video → ∀ clip ∈ payload.textClips, page.Spans clip)

open Layout Schedule

variable {plan : Plan Exact} {modeKey platformKey : String} {config : CompilerConfig Exact}
  {layout : Layout Exact} {overlap : ℚ} {lengths : List ℚ} (fps : ℕ)

section Clips

variable (run : Run layout overlap lengths)

include run

/-- The edges of a clip on its track are those of the run. -/
theorem edges_of_getElem? {k : ℕ} {clip : TrackClip Exact}
    (hk : (ofLayout fps layout).videoClips[k]? = some clip) :
    k < lengths.length ∧ clip.start = .finite (offset overlap lengths k) ∧
      clip.stop = .finite (Schedule.stop overlap lengths k) := by
  rw [videoClips_ofLayout, List.getElem?_map] at hk
  obtain ⟨placed, hplaced, rfl⟩ := Option.map_eq_some_iff.mp hk
  obtain ⟨hstart, hlength⟩ := run.clip_at k placed hplaced
  refine ⟨?_, hstart, ?_⟩
  · rw [← run.count]
    exact (List.getElem?_eq_some_iff.mp hplaced).1
  · change placed.start + placed.length = _
    rw [hstart, hlength, Exact.finite_add_finite, Schedule.stop]

theorem length_videoClips : (ofLayout fps layout).videoClips.length = lengths.length := by
  rw [videoClips_ofLayout, List.length_map, run.count]

/-- What is on screen can be read off the run. -/
theorem onScreen_iff (t : ℚ) (k : ℕ) :
    (ofLayout fps layout).OnScreen t k ↔
      ShownAt (offset overlap lengths) (Schedule.stop overlap lengths)
        (List.range lengths.length) t k := by
  constructor
  · rintro ⟨clip, hclip, hstart, hstop⟩
    obtain ⟨hk, hstartEq, hstopEq⟩ := edges_of_getElem? fps run hclip
    rw [hstartEq, Exact.finite_le_finite] at hstart
    rw [hstopEq, Exact.finite_lt_finite] at hstop
    exact ⟨k, List.getElem?_range hk, hstart, hstop⟩
  · rintro ⟨j, hj, hstart, hstop⟩
    obtain ⟨hk, rfl⟩ := List.getElem?_eq_some_iff.mp hj
    rw [List.length_range] at hk
    rw [List.getElem_range] at hstart hstop
    obtain ⟨clip, hclip⟩ : ∃ clip, (ofLayout fps layout).videoClips[k]? = some clip :=
      ⟨_, List.getElem?_eq_getElem ((length_videoClips fps run).symm ▸ hk)⟩
    obtain ⟨_, hstartEq, hstopEq⟩ := edges_of_getElem? fps run hclip
    refine ⟨clip, hclip, ?_, ?_⟩
    · rwa [hstartEq, Exact.finite_le_finite]
    · rwa [hstopEq, Exact.finite_lt_finite]

omit run in
/-- A clip is on screen from its start up to, but not at, its stop. -/
theorem onScreen_of_getElem? {payload : TrackPayload Exact} {k : ℕ} {clip : TrackClip Exact}
    (hk : payload.videoClips[k]? = some clip) (t : ℚ) :
    payload.OnScreen t k ↔ clip.start ≤ .finite t ∧ .finite t < clip.stop := by
  constructor
  · rintro ⟨a, ha, hfrom, hto⟩
    rw [hk] at ha
    cases ha
    exact ⟨hfrom, hto⟩
  · rintro ⟨hfrom, hto⟩
    exact ⟨clip, hk, hfrom, hto⟩

/-- In its middle, one overlap away from both of its ends, a clip is alone. -/
theorem alone_in_middle {k : ℕ} (hk : k < lengths.length) {t : ℚ}
    (hfrom : offset overlap lengths k + overlap ≤ t)
    (hto : t < Schedule.stop overlap lengths k - overlap) (j : ℕ) :
    (ofLayout fps layout).OnScreen t j ↔ j = k := by
  have hpos := run.overlap_pos
  rw [onScreen_iff fps run]
  refine run.shingled_times.alone (List.getElem?_range hk) (by linarith) (by linarith) ?_ ?_ j
  · intro i b hi hb
    obtain ⟨hlt, rfl⟩ := List.getElem?_eq_some_iff.mp hb
    rw [List.length_range] at hlt
    rw [List.getElem_range]
    rw [← hi, offset_succ overlap hlt] at hfrom
    linarith
  · intro b hb
    obtain ⟨_, rfl⟩ := List.getElem?_eq_some_iff.mp hb
    rw [List.getElem_range, offset_succ overlap hk]
    exact hto

/-- The clips of every run are staged. -/
theorem staged_ofLayout :
    Staged (ofLayout fps layout) overlap (Schedule.stop overlap lengths (lengths.length - 1)) := by
  have hshingled := run.shingled_times
  refine ⟨?_, ?_, ?_, ?_⟩
  · intro k a b ha hb
    obtain ⟨hk, hstartA, hstopA⟩ := edges_of_getElem? fps run ha
    obtain ⟨hk', hstartB, hstopB⟩ := edges_of_getElem? fps run hb
    have hstarts := run.offset_le_offset_succ hk
    have hstops := run.stop_le_stop_succ hk'
    constructor
    · rw [hstopA, hstartB, Exact.finite_add_finite, offset_succ overlap hk, sub_add_cancel]
    · intro t
      rw [onScreen_of_getElem? ha, onScreen_of_getElem? hb, hstartA, hstopA, hstartB, hstopB]
      simp only [Exact.finite_le_finite, Exact.finite_lt_finite]
      constructor
      · rintro ⟨⟨_, hend⟩, hbegun, _⟩
        exact ⟨hbegun, hend⟩
      · rintro ⟨hbegun, hend⟩
        exact ⟨⟨hstarts.trans hbegun, hend⟩, hbegun, hend.trans_le hstops⟩
  · intro j k a c hjk ha hc
    obtain ⟨hj, _, hstopA⟩ := edges_of_getElem? fps run ha
    obtain ⟨hk, hstartC, _⟩ := edges_of_getElem? fps run hc
    rw [hstopA, hstartC, Exact.finite_le_finite]
    exact hshingled.stop_le_first hjk (List.getElem?_range hj) (List.getElem?_range hk)
  · intro t hfrom hto
    have hshown : (ofLayout fps layout).OnScreen t = ShownAt (offset overlap lengths)
        (Schedule.stop overlap lengths) (List.range lengths.length) t :=
      funext fun k => propext (onScreen_iff fps run t k)
    have hhead : (List.range lengths.length).head? = some 0 := by
      rw [List.head?_eq_getElem?, List.getElem?_range run.length_pos]
    have hlast : (List.range lengths.length).getLast? = some (lengths.length - 1) := by
      rw [List.getLast?_eq_getElem?, List.length_range,
        List.getElem?_range (Nat.sub_lt run.length_pos one_pos)]
    rw [hshown]
    exact hshingled.covers hhead hlast (by rwa [offset_zero]) hto
  · intro k hk
    rw [length_videoClips fps run] at hk
    have hroom := run.room hk
    refine ⟨offset overlap lengths k + overlap, Schedule.stop overlap lengths k - overlap,
      ?_, ?_⟩
    · rw [Schedule.stop]
      linarith
    · intro t hfrom hto j
      exact alone_in_middle fps run hk hfrom hto j

/-- A page that begins with the video and does not end before it lies under
every clip. -/
theorem spans_videoClip {page : TrackClip Exact} {limit : ℚ} (hstart : page.start = .finite 0)
    (hstop : page.stop = .finite limit)
    (hlimit : Schedule.stop overlap lengths (lengths.length - 1) ≤ limit)
    {clip : TrackClip Exact} (hclip : clip ∈ (ofLayout fps layout).videoClips) :
    page.Spans clip := by
  obtain ⟨k, hk⟩ := List.mem_iff_getElem?.mp hclip
  obtain ⟨hlt, hclipStart, hclipStop⟩ := edges_of_getElem? fps run hk
  constructor
  · rw [hstart, hclipStart, Exact.finite_le_finite]
    exact run.offset_nonneg hlt
  · rw [hstop, hclipStop, Exact.finite_le_finite]
    exact (run.stop_le_stop_last hlt).trans hlimit

end Clips

/-- A page that begins with the video and does not end before it lies under every
caption, if the shortest caption fits into the video. -/
theorem spans_textClip (h : computeAs plan modeKey platformKey config = .ok layout)
    {page : TrackClip Exact} {video limit : ℚ} (hvideo : layout.videoDuration = .finite video)
    (hnonneg : 0 ≤ video) (hstart : page.start = .finite 0) (hstop : page.stop = .finite limit)
    (hlimit : video ≤ limit) (hfits : config.minOverlay ≤ layout.videoDuration)
    {clip : TrackClip Exact} (hclip : clip ∈ (ofLayout fps layout).textClips) :
    page.Spans clip := by
  obtain ⟨minimum, _, hminimum, hoverlays⟩ := exists_fits h hvideo hnonneg
  rw [hminimum, hvideo, Exact.finite_le_finite] at hfits
  rw [textClips_ofLayout] at hclip
  obtain ⟨placed, hplaced, rfl⟩ := List.mem_map.mp hclip
  obtain ⟨s, d, hs, hd, hin⟩ := hoverlays placed hplaced
  constructor
  · change page.start ≤ placed.start
    rw [hstart, hs, Exact.finite_le_finite]
    exact hin.start_nonneg
  · change placed.start + placed.duration ≤ page.stop
    rw [hstop, hs, hd, Exact.finite_add_finite, Exact.finite_le_finite]
    exact (hin.stop_le hfits).trans hlimit

/-- The tracks of every layout are stacked. -/
theorem stacked_ofLayout (h : computeAs plan modeKey platformKey config = .ok layout) :
    Stacked (ofLayout fps layout) plan config layout.videoDuration := by
  obtain ⟨overlap, lengths, run⟩ := exists_run h
  obtain ⟨tail, htail, htailEq, hbackground⟩ := exists_background h
  let video := Schedule.stop overlap lengths (lengths.length - 1)
  let page := backgroundClip layout.platformProfile
    ⟨((Mode.resolve modeKey).profile (α := Exact)).backgroundColor, 0,
      layout.videoDuration + config.backgroundTail⟩
  have hvideo : layout.videoDuration = .finite video := run.video_eq
  have hstart : page.start = .finite 0 := rfl
  have hstop : page.stop = .finite (video + tail) := by
    change (0 : Exact) + (layout.videoDuration + config.backgroundTail) = _
    rw [hvideo, htailEq, Exact.ofNat_eq, Exact.finite_add_finite, Exact.finite_add_finite,
      Nat.cast_zero, zero_add]
  have hlimit : video ≤ video + tail := by linarith
  refine ⟨?_, ?_, page, ?_, hstart, ?_, ?_, ?_⟩
  · rw [roles_ofLayout fps layout hbackground, isEmpty_overlays h]
  · intro track htrack
    exact clips_ne_nil_of_mem fps layout (clips_ne_nil h) htrack
  · rw [track?_ofLayout]
    change backgroundTrack? layout = _
    rw [backgroundTrack?, hbackground]
    rfl
  · rw [hstop, hvideo, htailEq, Exact.finite_add_finite]
  · intro clip hclip
    exact spans_videoClip fps run hstart hstop hlimit hclip
  · intro hfits clip hclip
    exact spans_textClip fps h hvideo run.stop_last_pos.le hstart hstop hlimit hfits hclip

end TrackPayload

/-- **What is on screen when.**  In exact arithmetic the payload in seconds of
every plan that compiles shows one clip, or two that blend, at every instant of
the video, gives every clip a second of its own, and has the background beneath
all of it. -/
theorem Compiler.tracksAs_staged {compiler : Compiler Exact} {plan : Plan Exact}
    {modeKey platformKey : String} {payload : TrackPayload Exact}
    (h : compiler.tracksAs plan modeKey platformKey = .ok payload) :
    ∃ (layout : Layout Exact) (overlap video : ℚ),
      compiler.layoutAs plan modeKey platformKey = .ok layout ∧
      (Mode.resolve modeKey).profile.transitionDuration = Exact.finite overlap ∧
      layout.videoDuration = .finite video ∧
      payload.Staged overlap video ∧
      payload.Stacked plan compiler.config layout.videoDuration := by
  obtain ⟨layout, hlayout, rfl⟩ := tracksAs_eq_ok_iff.mp h
  obtain ⟨overlap, lengths, run⟩ := Layout.exists_run hlayout
  refine ⟨layout, overlap, _, hlayout, ?_, run.video_eq, ?_, ?_⟩
  · rw [← Layout.transitionDuration_eq hlayout, run.overlap_eq]
  · exact TrackPayload.staged_ofLayout compiler.config.fps run
  · exact TrackPayload.stacked_ofLayout compiler.config.fps hlayout

/-- The tracks of the sample are staged and stacked as they should be. -/
theorem Compiler.tracksAs_staged_of_three_clips :
    ∃ payload, standardExact.tracksAs (.sample Exact) "vlog" "tiktok" = .ok payload ∧
      ∃ (layout : Layout Exact) (overlap video : ℚ),
        standardExact.layoutAs (.sample Exact) "vlog" "tiktok" = .ok layout ∧
        (Mode.resolve "vlog").profile.transitionDuration = Exact.finite overlap ∧
        layout.videoDuration = .finite video ∧
        payload.Staged overlap video ∧
        payload.Stacked (.sample Exact) standardExact.config layout.videoDuration := by
  have hcompiles : (standardExact.tracksAs (.sample Exact) "vlog" "tiktok").toOption.any
      (fun _ => true) = true := by
    decide +kernel
  obtain ⟨payload, hpayload, _⟩ := exists_of_any hcompiles
  exact ⟨payload, hpayload, tracksAs_staged hpayload⟩

end Montage
