import Montage.Proofs.Clock
import Montage.Proofs.Compiler

/-!
# No frame is left black

The frames of a payload come from times by rounding, edge by edge.  Rounding
keeps the order of times, so the clips lie like shingles in frames as they do in
seconds, and no frame between the first and the last of them is left out.

What is rounded in another way is the length of the video: it is covered, not
rounded to the nearest frame.  `Clock.frameAt_le_coveringAt` and
`Clock.coveringAt_le_frameAt_succ` keep it within one frame of the end of the
last clip, and the background, which lasts longer than the clips, covers it.
-/

namespace Montage

/-- The first frame behind a stretch of frames. -/
def FrameSpan.stop (span : FrameSpan) : ℕ := span.start + span.duration

/-- Whether a frame belongs to a stretch of frames. -/
def FrameSpan.Holds (span : FrameSpan) (frame : ℕ) : Prop :=
  span.start ≤ frame ∧ frame < span.stop

namespace FrameSequence

variable {α : Type}

def first (sequence : FrameSequence α) : ℕ := sequence.span.start

def stop (sequence : FrameSequence α) : ℕ := sequence.span.stop

end FrameSequence

namespace FramePayload

section Statement

variable {α : Type}

/-- A payload without a black frame. -/
structure Seamless (payload : FramePayload α) : Prop where
  begins : ∃ head, payload.sequences.head? = some head ∧ head.first = 0
  shingled : Shingled FrameSequence.first FrameSequence.stop payload.sequences
  /-- Every frame in front of the end of the last sequence is shown by one
  sequence or by two adjacent ones. -/
  shown : ∀ {last : FrameSequence α} {frame : ℕ}, payload.sequences.getLast? = some last →
    frame < last.stop →
      AloneOrPaired (ShownAt FrameSequence.first FrameSequence.stop payload.sequences frame)
  total : ∀ {last : FrameSequence α}, payload.sequences.getLast? = some last →
    last.stop ≤ payload.duration ∧ payload.duration ≤ last.stop + 1
  background : ∃ span, payload.background = some span ∧ span.start = 0 ∧
    payload.duration ≤ span.duration ∧ ∀ frame < payload.duration, span.Holds frame

end Statement

open Layout Schedule

variable {plan : Plan Exact} {modeKey platformKey : String} {config : CompilerConfig Exact}
  {layout : Layout Exact} {overlap : ℚ} {lengths : List ℚ} (clock : Clock)

/-- The edges of a sequence are the frames nearest to the edges of its clip. -/
theorem edges_of_getElem? (h : computeAs plan modeKey platformKey config = .ok layout)
    (run : Run layout overlap lengths) {k : ℕ} {sequence : FrameSequence Exact}
    (hk : (ofLayout clock layout).sequences[k]? = some sequence) :
    sequence.first = clock.frameAt (offset overlap lengths k) ∧
      sequence.stop = clock.frameAt (stop overlap lengths k) := by
  have hmap : (ofLayout clock layout).sequences = layout.clips.map (sequenceOf clock) := rfl
  rw [hmap, List.getElem?_map] at hk
  obtain ⟨clip, hclip, rfl⟩ := Option.map_eq_some_iff.mp hk
  obtain ⟨hstart, hlength⟩ := run.clip_at k clip hclip
  have hpos : 0 < clip.length := length_pos_of_mem h (List.mem_of_getElem? hclip)
  have hspan : clock.frame clip.start + clock.span clip.start clip.length
      = clock.frame (clip.start + clip.length) := clock.frame_add_span hpos
  constructor
  · change clock.frame clip.start = _
    rw [hstart, Clock.frame_finite]
  · change clock.frame clip.start + clock.span clip.start clip.length = _
    rw [hspan, hstart, hlength, Exact.finite_add_finite, Clock.frame_finite, stop]

/-- The background begins with the video and covers all of its frames. -/
theorem background_covers (h : computeAs plan modeKey platformKey config = .ok layout)
    (run : Run layout overlap lengths) :
    ∃ span, (ofLayout clock layout).background = some span ∧ span.start = 0 ∧
      (ofLayout clock layout).duration ≤ span.duration := by
  obtain ⟨tail, htail, htailEq, hbackground⟩ := exists_background h
  refine ⟨⟨clock.frame (0 : Exact),
    clock.covering (layout.videoDuration + config.backgroundTail)⟩, ?_, ?_, ?_⟩
  · change layout.background.map (backgroundOf clock) = _
    rw [hbackground]
    rfl
  · change clock.frame (0 : Exact) = 0
    rw [Exact.ofNat_eq, Nat.cast_zero, Clock.frame_finite, Clock.frameAt_zero]
  · change clock.covering layout.videoDuration ≤
      clock.covering (layout.videoDuration + config.backgroundTail)
    rw [run.video_eq, htailEq, Exact.finite_add_finite, Clock.covering_finite,
      Clock.covering_finite]
    exact clock.coveringAt_mono (by linarith)

/-- The payload of every layout is without a black frame. -/
theorem seamless_ofLayout (h : computeAs plan modeKey platformKey config = .ok layout) :
    Seamless (ofLayout clock layout) := by
  obtain ⟨overlap, lengths, run⟩ := exists_run h
  have hcount : (ofLayout clock layout).sequences.length = lengths.length := by
    rw [← run.count]
    exact List.length_map _
  have hedges : ∀ {k : ℕ} {sequence : FrameSequence Exact},
      (ofLayout clock layout).sequences[k]? = some sequence →
        sequence.first = clock.frameAt (offset overlap lengths k) ∧
          sequence.stop = clock.frameAt (stop overlap lengths k) :=
    fun hk => edges_of_getElem? clock h run hk
  -- rounding is monotone, so the frames overlap as the times do
  have hshingled : Shingled FrameSequence.first FrameSequence.stop
      (ofLayout clock layout).sequences :=
    run.shingled clock.frameAt_mono hcount fun k sequence hk => hedges hk
  obtain ⟨head, hhead⟩ : ∃ head, (ofLayout clock layout).sequences[0]? = some head :=
    ⟨_, List.getElem?_eq_getElem (hcount ▸ run.length_pos)⟩
  have hfirst : head.first = 0 := by
    rw [(hedges hhead).1, offset_zero, Clock.frameAt_zero]
  rw [← List.head?_eq_getElem?] at hhead
  refine ⟨⟨head, hhead, hfirst⟩, hshingled, ?_, ?_, ?_⟩
  · intro last frame hlast hframe
    exact hshingled.covers hhead hlast (hfirst ▸ Nat.zero_le frame) hframe
  · intro last hlast
    rw [List.getLast?_eq_getElem?, hcount] at hlast
    have hduration : (ofLayout clock layout).duration
        = clock.coveringAt (stop overlap lengths (lengths.length - 1)) := by
      change clock.covering layout.videoDuration = _
      rw [run.video_eq, Clock.covering_finite]
    rw [(hedges hlast).2, hduration]
    exact ⟨clock.frameAt_le_coveringAt _, clock.coveringAt_le_frameAt_succ _⟩
  · obtain ⟨span, hspan, hstart, hduration⟩ := background_covers clock h run
    refine ⟨span, hspan, hstart, hduration, ?_⟩
    intro frame hframe
    refine ⟨hstart ▸ Nat.zero_le frame, ?_⟩
    rw [FrameSpan.stop, hstart]
    omega

end FramePayload

/-- **No black frame.**  In exact arithmetic the payload in frames of every plan
that compiles shows something on every frame: the sequences lie like shingles
from frame 0 to the end of the video, and the background lies beneath them all
the way. -/
theorem Compiler.framesAs_seamless {compiler : Compiler Exact} {plan : Plan Exact}
    {modeKey platformKey : String} {payload : FramePayload Exact}
    (h : compiler.framesAs plan modeKey platformKey = .ok payload) : payload.Seamless := by
  obtain ⟨layout, hlayout, rfl⟩ := framesAs_eq_ok_iff.mp h
  exact FramePayload.seamless_ofLayout compiler.clock hlayout

/-- The three clips of the sample make a seamless video. -/
theorem Compiler.framesAs_seamless_of_three_clips :
    ∃ payload, standardExact.framesAs (.sample Exact) "vlog" "tiktok" = .ok payload ∧
      payload.Seamless := by
  have hcompiles : (standardExact.framesAs (.sample Exact) "vlog" "tiktok").toOption.any
      (fun _ => true) = true := by
    decide +kernel
  obtain ⟨payload, hpayload, _⟩ := exists_of_any hcompiles
  exact ⟨payload, hpayload, framesAs_seamless hpayload⟩

end Montage
