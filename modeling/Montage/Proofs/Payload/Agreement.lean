import Mathlib.Data.List.Forall2
import Montage.Proofs.Compiler
import Montage.Proofs.Numbers.DoubleLaws
import Montage.Proofs.Payload.Tracks

/-!
# Two payloads, one edit

A plan has a payload in seconds and a payload in frames, and both describe the
same edit.  `SameEdit` says what that means without a word about layouts: what a
reader of the one payload finds in the other, part by part, with the clock as the
only dictionary between seconds and frames.

The parts do not have the same shape.  A clip on a track carries the transitions
at both of its ends; in frames a transition stands between two clips, so that of
the first clip's entry and the last clip's exit are left over as edges.
`joinsOf_getElem?` is the shift by one that this takes.

All of it holds of numbers that are rounded, as long as rounding keeps the order
of positive times: then a clip ends on the frame that is nearest to its end.
-/

namespace Montage

section Statement

variable {α : Type} [Scalar α] (clock : Clock)

/-- A clip on the track of the video and a sequence show the same. -/
structure SameClip (clip : TrackClip α) (sequence : FrameSequence α) : Prop where
  asset : ∃ trim, clip.asset = .video sequence.source trim sequence.volume ∧
    sequence.startFrom = clock.frame trim
  first : sequence.span.start = clock.frame clip.start
  stop : sequence.span.start + sequence.span.duration = clock.frame (clip.start + clip.length)
  filter : sequence.filter = clip.filter
  effect : sequence.kenBurns.map KenBurns.effect = clip.effect
  kenBurns : sequence.kenBurns = clip.effect.map Effect.kenBurns

/-- A clip on the track of the captions and a caption in frames say the same. -/
structure SameCaption (clip : TrackClip α) (caption : FrameOverlay) : Prop where
  asset : clip.asset =
    .title caption.text caption.style caption.color caption.size caption.position
  first : caption.span.start = clock.frame clip.start
  duration : caption.span.duration = max (clock.span clip.start clip.length) 1
  fades : ∃ fades : TransitionPair, clip.transition = some fades ∧
    caption.fadeIn = FramePayload.fadeFrames clock α caption.span.duration fades.entry ∧
    caption.fadeOut = FramePayload.fadeFrames clock α caption.span.duration fades.exit

/-- The track of the background and a background in frames are the same page of a
size and a color. -/
def SameBackground (width height : ℕ) (color : String) (track : Track α) (span : FrameSpan) :
    Prop :=
  ∃ page, track.clips = [page] ∧ page.asset = .page width height color ∧
    span.start = clock.frame page.start ∧ span.duration = clock.covering page.length

/-- Music in both payloads is the same, and fades at the same edges. -/
structure SameMusic (soundtrack : Soundtrack α) (music : FrameMusic α) : Prop where
  source : music.source = soundtrack.sourceReference
  volume : music.volume = soundtrack.volume
  fadeIn : music.fadeIn = if soundtrack.effect.fadesIn then clock.frame (1.0 : α) else 0
  fadeOut : music.fadeOut = if soundtrack.effect.fadesOut then clock.frame (1.0 : α) else 0

/-- A payload in seconds and a payload in frames describe the same edit. -/
structure SameEdit (inSeconds : TrackPayload α) (inFrames : FramePayload α) : Prop where
  sequences : List.Forall₂ (SameClip clock) inSeconds.videoClips inFrames.sequences
  indices : inFrames.sequences.map FrameSequence.index = List.range inFrames.sequences.length
  /-- Between `n` clips stand `n - 1` transitions. -/
  joins_length : inFrames.transitions.length + 1 = inSeconds.videoClips.length
  /-- Each transition is the entry of the clip behind it. -/
  join_at : ∀ {k : ℕ} {join : FrameTransition}, inFrames.transitions[k]? = some join →
    join.after = k ∧ ∃ clip pair, inSeconds.videoClips[k + 1]? = some clip ∧
      clip.transition = some pair ∧ join.source = pair.entry
  opening : ∃ clip pair, inSeconds.videoClips.head? = some clip ∧
    clip.transition = some pair ∧ inFrames.intro.source = pair.entry
  closing : ∃ clip pair, inSeconds.videoClips.getLast? = some clip ∧
    clip.transition = some pair ∧ inFrames.outro.source = pair.exit ∧
    inFrames.duration = clock.covering (clip.start + clip.length)
  captions : List.Forall₂ (SameCaption clock) inSeconds.textClips inFrames.overlays
  caption_indices : inFrames.overlays.map FrameOverlay.index = List.range inFrames.overlays.length
  background : Option.Rel
    (SameBackground clock inFrames.width inFrames.height inFrames.backgroundColor)
    (inSeconds.track? .background) inFrames.background
  music : Option.Rel (SameMusic clock) inSeconds.soundtrack inFrames.music
  canvas : inFrames.backgroundColor = inSeconds.canvas
  size : (inFrames.width, inFrames.height) = (inSeconds.width, inSeconds.height)
  fps : inFrames.fps = clock.fps ∧ inSeconds.fps = clock.fps

end Statement

/-- The pan and zoom of an effect names that effect again, so both payloads can be compared
by it. -/
theorem Effect.effect_kenBurns {α : Type} [Scalar α] (effect : Effect) :
    (effect.kenBurns (α := α)).effect = effect := by
  cases effect <;> rfl

namespace Layout

variable {α : Type} [Scalar α] {plan : Plan α} {modeKey platformKey : String}
  {config : CompilerConfig α} {layout : Layout α} (clock : Clock)

/-- A clip with a length is the same in both payloads. -/
theorem sameClip [MonotoneScalar α] {clip : ClipPlacement α} (h : 0 < clip.length) :
    SameClip clock (TrackPayload.videoClip clip) (FramePayload.sequenceOf clock clip) where
  asset := ⟨clip.trimStart, rfl, rfl⟩
  first := rfl
  stop := clock.frame_add_span h
  filter := rfl
  effect := by
    change (clip.effect.map Effect.kenBurns).map KenBurns.effect = clip.effect
    rw [Option.map_map]
    cases clip.effect with
    | none => rfl
    | some effect => exact congrArg some effect.effect_kenBurns
  kenBurns := rfl

/-- A caption is the same in both payloads. -/
theorem sameCaption (overlay : OverlayPlacement α) :
    SameCaption clock (TrackPayload.overlayClip overlay) (FramePayload.overlayOf clock overlay)
    where
  asset := rfl
  first := rfl
  duration := rfl
  fades := ⟨⟨overlay.style.fadeIn, overlay.style.fadeOut⟩, rfl, rfl, rfl⟩

/-- The transitions of both payloads agree. -/
theorem join_at (h : computeAs plan modeKey platformKey config = .ok layout) {k : ℕ}
    {join : FrameTransition}
    (hjoin : (FramePayload.ofLayout clock layout).transitions[k]? = some join) :
    join.after = k ∧ ∃ clip pair,
      (layout.clips.map TrackPayload.videoClip)[k + 1]? = some clip ∧
        clip.transition = some pair ∧ join.source = pair.entry := by
  simp only [FramePayload.ofLayout, joins, List.getElem?_map, joinsOf_getElem?] at hjoin
  obtain ⟨⟨after, source⟩, hat, rfl⟩ := Option.map_eq_some_iff.mp hjoin
  obtain ⟨clip, hclip, hat⟩ := Option.bind_eq_some_iff.mp hat
  obtain ⟨next, hnext, hpair⟩ := Option.map_eq_some_iff.mp hat
  obtain ⟨rfl, rfl⟩ := Prod.mk.inj hpair
  obtain ⟨_, _, _, hindex, _⟩ := exists_clip_of_getElem? h hclip
  refine ⟨hindex, TrackPayload.videoClip next, next.transition, ?_, rfl, rfl⟩
  rw [List.getElem?_map, hnext]
  rfl

/-- The backgrounds of both payloads agree. -/
theorem sameBackground (background : Option (Background α)) (profile : PlatformProfile α)
    (color : String) (h : ∀ b ∈ background, b.color = color) :
    Option.Rel (SameBackground clock profile.width profile.height color)
      (background.map fun b => ⟨.background, [TrackPayload.backgroundClip profile b]⟩)
      (background.map (FramePayload.backgroundOf clock)) := by
  cases background with
  | none => exact .none
  | some b =>
      obtain rfl := h b rfl
      exact .some ⟨_, rfl, rfl, rfl, rfl⟩

/-- The music of both payloads agrees. -/
theorem sameMusic (soundtrack : Option (Soundtrack α)) :
    Option.Rel (SameMusic clock) soundtrack (soundtrack.map (FramePayload.musicOf clock)) := by
  cases soundtrack with
  | none => exact .none
  | some soundtrack => exact .some ⟨rfl, rfl, rfl, rfl⟩

/-- Both payloads of a layout describe the same edit. -/
theorem sameEdit [MonotoneScalar α]
    (h : computeAs plan modeKey platformKey config = .ok layout) {fps : ℕ}
    (hfps : fps = clock.fps) :
    SameEdit clock (TrackPayload.ofLayout fps layout) (FramePayload.ofLayout clock layout) := by
  have hclips := TrackPayload.videoClips_ofLayout fps layout
  have hsequences : (FramePayload.ofLayout clock layout).sequences
      = layout.clips.map (FramePayload.sequenceOf clock) := rfl
  obtain ⟨head, hhead⟩ : ∃ head, layout.clips.head? = some head :=
    ⟨_, List.head?_eq_some_head (clips_ne_nil h)⟩
  obtain ⟨last, hlast⟩ : ∃ last, layout.clips.getLast? = some last :=
    ⟨_, List.getLast?_eq_some_getLast (clips_ne_nil h)⟩
  have hcaptions : (FramePayload.ofLayout clock layout).overlays
      = layout.overlays.map (FramePayload.overlayOf clock) := rfl
  refine ⟨?_, ?_, ?_, ?_, ?_, ?_, ?_, ?_, ?_, sameMusic clock layout.soundtrack, rfl, rfl, rfl,
    hfps⟩
  · rw [hclips, hsequences, List.forall₂_map_left_iff, List.forall₂_map_right_iff,
      List.forall₂_same]
    intro clip hclip
    exact sameClip clock (length_pos_of_mem h hclip)
  · rw [hsequences, List.length_map, List.map_map, ← map_index_clips h]
    rfl
  · -- a transition stands between two clips, so there is one less of them
    have hjoins : (FramePayload.ofLayout clock layout).transitions.length
        = layout.clips.length - 1 := by
      rw [← length_joinsOf layout.clips]
      exact List.length_map _
    have hpos := List.length_pos_iff.mpr (clips_ne_nil h)
    rw [hclips, hjoins, List.length_map]
    omega
  · intro k join hjoin
    rw [hclips]
    exact join_at clock h hjoin
  · refine ⟨TrackPayload.videoClip head, head.transition, ?_, rfl, ?_⟩
    · rw [hclips, List.head?_map, hhead]
      rfl
    · change FramePayload.opening layout = _
      rw [FramePayload.opening, hhead]
  · refine ⟨TrackPayload.videoClip last, last.transition, ?_, rfl, ?_, ?_⟩
    · rw [hclips, List.getLast?_map, hlast]
      rfl
    · change FramePayload.closing layout = _
      rw [FramePayload.closing, hlast]
    · change clock.covering layout.videoDuration = _
      rw [videoDuration_eq h hlast]
      rfl
  · rw [TrackPayload.textClips_ofLayout, hcaptions, List.forall₂_map_left_iff,
      List.forall₂_map_right_iff, List.forall₂_same]
    intro overlay _
    exact sameCaption clock overlay
  · rw [hcaptions, List.length_map, List.map_map, ← map_index_overlays h]
    rfl
  · rw [TrackPayload.track?_ofLayout]
    exact sameBackground clock layout.background layout.platformProfile _
      fun background hb => color_of_background h hb

end Layout

/-- **Two payloads, one edit.**  Where a plan has a layout it has both payloads,
whichever way they are asked for, and the two describe the same edit. -/
theorem Compiler.payloads_sameEdit {α : Type} [Scalar α] [MonotoneScalar α]
    {compiler : Compiler α} {plan : Plan α} {modeKey platformKey : String} {layout : Layout α}
    (h : compiler.layoutAs plan modeKey platformKey = .ok layout) :
    ∃ inSeconds inFrames,
      compiler.tracksAs plan modeKey platformKey = .ok inSeconds ∧
      compiler.framesAs plan modeKey platformKey = .ok inFrames ∧
      (modeKey = plan.mode → platformKey = plan.platform →
        compiler.tracks plan = .ok inSeconds ∧ compiler.frames plan = .ok inFrames ∧
          compiler.both plan = .ok (inSeconds, inFrames)) ∧
      SameEdit compiler.clock inSeconds inFrames := by
  refine ⟨compiler.tracksOf layout, compiler.framesOf layout,
    tracksAs_eq_ok_iff.mpr ⟨layout, h, rfl⟩, framesAs_eq_ok_iff.mpr ⟨layout, h, rfl⟩, ?_,
    Layout.sameEdit compiler.clock h (clock_fps compiler).symm⟩
  rintro rfl rfl
  exact ⟨tracksAs_eq_ok_iff.mpr ⟨layout, h, rfl⟩, framesAs_eq_ok_iff.mpr ⟨layout, h, rfl⟩,
    both_eq_ok_iff.mpr ⟨layout, h, rfl⟩⟩

/-- On the doubles that the program runs on, with rounding and all. -/
theorem Compiler.payloads_sameEdit_on_doubles :
    ∃ inSeconds inFrames, standard.both (.sample Float) = .ok (inSeconds, inFrames) ∧
      SameEdit standard.clock inSeconds inFrames := by
  have hcompiles : (standard.layoutAs (.sample Float) "vlog" "tiktok").toOption.any
      (fun _ => true) = true := by
    decide +kernel
  obtain ⟨layout, hlayout, _⟩ := exists_of_any hcompiles
  obtain ⟨inSeconds, inFrames, _, _, hown, hsame⟩ := payloads_sameEdit hlayout
  exact ⟨inSeconds, inFrames, (hown rfl rfl).2.2, hsame⟩

end Montage
