import Montage.Proofs.Durations
import Montage.Proofs.Payload.Coverage

/-!
# Frames do not drift

A sequence has its first frame and its length from two roundings, one at each edge of its
clip, and neither depends on how the sequences in front of it were rounded.  So no error adds
up: every edge is within half a frame of its time, however many clips precede it.

The blend between two sequences is declared with a length that is rounded on its own.  The
frames that the two really share lie between two edges, each rounded on its own too.  Three
roundings are off by less than two frames together, and what they are off by is a whole number:
`abs_shared_sub_le` leaves one frame.
-/

namespace Montage

section Statement

/-- Both edges of a sequence are near those of a clip. -/
def FrameSequence.Near (clock : Clock) (clip : ClipPlacement Exact)
    (sequence : FrameSequence Exact) : Prop :=
  ∃ start length : ℚ, clip.start = .finite start ∧ clip.length = .finite length ∧
    clock.Near sequence.first start ∧ clock.Near sequence.stop (start + length)

/-- A payload whose frames are near the times of a layout. -/
structure Undrifted (clock : Clock) (layout : Layout Exact) (payload : FramePayload Exact) :
    Prop where
  near : List.Forall₂ (FrameSequence.Near clock) layout.clips payload.sequences
  shown : ∀ sequence ∈ payload.sequences, 1 ≤ sequence.span.duration
  ascending : payload.sequences.Pairwise fun a b => a.first < b.first
  /-- Between two sequences a blend is declared, with the number of frames that they share
  or one frame more or less. -/
  blended : ∀ {k : ℕ} {a b : FrameSequence Exact}, payload.sequences[k]? = some a →
    payload.sequences[k + 1]? = some b →
      ∃ blend, payload.transitions[k]? = some blend ∧ blend.after = k ∧
        |((a.stop : ℤ) - b.first) - blend.duration| ≤ 1

end Statement

namespace Clock

variable {clock : Clock} {s t w : ℚ} {a b d : ℕ}

/-- Times that are more than a second apart have frames of their own, at any rate. -/
theorem Near.lt (ha : clock.Near a s) (hb : clock.Near b t) (hst : s + 1 < t) : a < b := by
  have hfps : (1 : ℚ) ≤ clock.fps := by exact_mod_cast clock.fps_pos
  have hapart : 1 < (t - s) * clock.fps := by nlinarith
  have hab : (a : ℚ) < b := by
    have := (abs_le.mp ha).2
    have := (abs_le.mp hb).1
    linarith
  exact_mod_cast hab

/-- Of a difference of two times, rounded at both edges and rounded as a whole, one is at most
a frame longer than the other. -/
theorem abs_shared_sub_le (ha : clock.Near a s) (hb : clock.Near b t) (hd : clock.Near d w)
    (hst : s = t + w) : |((a : ℤ) - b) - d| ≤ 1 := by
  obtain ⟨ha, ha'⟩ := abs_le.mp ha
  obtain ⟨hb, hb'⟩ := abs_le.mp hb
  obtain ⟨hd, hd'⟩ := abs_le.mp hd
  have hticks : s * clock.fps = t * clock.fps + w * clock.fps := by rw [hst, add_mul]
  have hlow : (-2 : ℚ) < a - b - d := by linarith
  have hhigh : (a : ℚ) - b - d < 2 := by linarith
  have hlow' : (-2 : ℤ) < a - b - d := by exact_mod_cast hlow
  have hhigh' : (a : ℤ) - b - d < 2 := by exact_mod_cast hhigh
  rw [abs_le]
  omega

end Clock

namespace Layout

variable {plan : Plan Exact} {modeKey platformKey : String} {config : CompilerConfig Exact}
  {layout : Layout Exact}

/-- The overlap of a mode is longer than what is forgiven of a length. -/
theorem Run.forgiven_lt {overlap : ℚ} {lengths : List ℚ} (run : Run layout overlap lengths)
    (h : computeAs plan modeKey platformKey config = .ok layout) : 1 / 10 ^ 9 < overlap := by
  have htable : ∃ w : ℚ, 1 / 10 ^ 9 < w ∧
      ((Mode.resolve modeKey).profile (α := Exact)).transitionDuration = .finite w := by
    cases Mode.resolve modeKey <;> refine ⟨_, ?_, rfl⟩ <;> norm_num [Exact.decimal]
  obtain ⟨w, hw, hmode⟩ := htable
  rw [← transitionDuration_eq h, run.overlap_eq] at hmode
  rwa [Exact.finite.inj hmode]

end Layout

namespace FramePayload

open Layout Schedule

variable {plan : Plan Exact} {modeKey platformKey : String} {config : CompilerConfig Exact}
  {layout : Layout Exact} {overlap : ℚ} {lengths : List ℚ} {clock : Clock}

/-- Every sequence belongs to a clip: its index is below the number of clips. -/
theorem lt_length_of_getElem? (run : Run layout overlap lengths) {k : ℕ}
    {sequence : FrameSequence Exact} (hk : (ofLayout clock layout).sequences[k]? = some sequence) :
    k < lengths.length := by
  rw [← run.count, ← List.length_map (sequenceOf clock)]
  exact (List.getElem?_eq_some_iff.mp hk).1

/-- The edges of a sequence are near those of its clip. -/
theorem near_of_getElem? (h : computeAs plan modeKey platformKey config = .ok layout)
    (run : Run layout overlap lengths)
    (hlimit : stop overlap lengths (lengths.length - 1) * clock.fps ≤ frameLimit) {k : ℕ}
    {sequence : FrameSequence Exact} (hk : (ofLayout clock layout).sequences[k]? = some sequence) :
    clock.Near sequence.first (offset overlap lengths k) ∧
      clock.Near sequence.stop (stop overlap lengths k) := by
  have hcount := lt_length_of_getElem? run hk
  obtain ⟨hfirst, hstop⟩ := edges_of_getElem? clock h run hk
  have hnonneg := run.offset_nonneg hcount
  have hlast := run.stop_le_stop_last hcount
  have hbefore : offset overlap lengths k ≤ stop overlap lengths k := by
    have hroom := run.room hcount
    have hpos := run.overlap_pos
    rw [stop]
    linarith
  rw [hfirst, hstop]
  exact ⟨Clock.near_frameAt_of_le hnonneg (hbefore.trans hlast) hlimit,
    Clock.near_frameAt_of_le (hnonneg.trans hbefore) hlast hlimit⟩

/-- Between two sequences stands a blend of the length of the overlap. -/
theorem exists_transition (h : computeAs plan modeKey platformKey config = .ok layout)
    (run : Run layout overlap lengths) {k : ℕ} {a b : FrameSequence Exact}
    (ha : (ofLayout clock layout).sequences[k]? = some a)
    (hb : (ofLayout clock layout).sequences[k + 1]? = some b) :
    ∃ blend, (ofLayout clock layout).transitions[k]? = some blend ∧ blend.after = k ∧
      blend.duration = clock.frameAt overlap := by
  have hmap : (ofLayout clock layout).sequences = layout.clips.map (sequenceOf clock) := rfl
  rw [hmap, List.getElem?_map] at ha hb
  obtain ⟨clip, hclip, -⟩ := Option.map_eq_some_iff.mp ha
  obtain ⟨next, hnext, -⟩ := Option.map_eq_some_iff.mp hb
  obtain ⟨-, -, -, hindex, -⟩ := exists_clip_of_getElem? h hclip
  refine ⟨⟨clip.index, next.transition.entry, clock.frame layout.transitionDuration⟩, ?_, hindex,
    ?_⟩
  · simp only [ofLayout, joins, List.getElem?_map, joinsOf_getElem?, hclip, hnext,
      Option.bind_some, Option.map_some]
  · rw [run.overlap_eq, Clock.frame_finite]

/-- The payload of a layout does not drift, at any rate at which its frames can be counted. -/
theorem undrifted_ofLayout (h : computeAs plan modeKey platformKey config = .ok layout)
    (run : Run layout overlap lengths)
    (hlimit : stop overlap lengths (lengths.length - 1) * clock.fps ≤ frameLimit) :
    Undrifted clock layout (ofLayout clock layout) := by
  have hforgiven := run.forgiven_lt h
  have hnear : ∀ {k : ℕ} {sequence : FrameSequence Exact},
      (ofLayout clock layout).sequences[k]? = some sequence →
        clock.Near sequence.first (offset overlap lengths k) ∧
          clock.Near sequence.stop (stop overlap lengths k) :=
    fun hk => near_of_getElem? h run hlimit hk
  have hmap : (ofLayout clock layout).sequences = layout.clips.map (sequenceOf clock) := rfl
  refine ⟨?_, ?_, ?_, ?_⟩
  · rw [hmap, List.forall₂_map_right_iff, List.forall₂_same]
    intro clip hclip
    obtain ⟨k, hk⟩ := List.mem_iff_getElem?.mp hclip
    obtain ⟨hstart, hlength⟩ := run.clip_at k clip hk
    have hsequence : (ofLayout clock layout).sequences[k]? = some (sequenceOf clock clip) := by
      rw [hmap, List.getElem?_map, hk, Option.map_some]
    exact ⟨_, _, hstart, hlength, hnear hsequence⟩
  · intro sequence hmem
    obtain ⟨k, hk⟩ := List.mem_iff_getElem?.mp hmem
    obtain ⟨hfirst, hstop⟩ := hnear hk
    have hroom := run.room (lt_length_of_getElem? run hk)
    have hlt : sequence.first < sequence.stop := hfirst.lt hstop (by rw [stop]; linarith)
    rw [FrameSequence.first, FrameSequence.stop, FrameSpan.stop] at hlt
    omega
  · have htrans : IsTrans (FrameSequence Exact) fun a b => a.first < b.first :=
      ⟨fun _ _ _ => lt_trans⟩
    rw [← List.isChain_iff_pairwise, List.isChain_iff_getElem]
    intro k hk
    have ha := List.getElem?_eq_getElem (Nat.lt_of_succ_lt hk)
    have hgrows := offset_add_le run.roomy (lt_length_of_getElem? run ha)
    exact (hnear ha).1.lt (hnear (List.getElem?_eq_getElem hk)).1 (by linarith)
  · intro k a b ha hb
    obtain ⟨blend, hblend, hafter, hduration⟩ := exists_transition h run ha hb
    have hk := lt_length_of_getElem? run ha
    have hshared : stop overlap lengths k = offset overlap lengths (k + 1) + overlap := by
      rw [offset_succ overlap hk, sub_add_cancel]
    -- An overlap is no longer than the video, so that its frames can be counted too.
    have hshort : overlap ≤ stop overlap lengths (lengths.length - 1) := by
      have hnonneg := run.offset_nonneg (lt_length_of_getElem? run hb)
      linarith [run.stop_le_stop_last hk]
    refine ⟨blend, hblend, hafter, ?_⟩
    exact Clock.abs_shared_sub_le (hnear ha).2 (hnear hb).1
      (hduration ▸ Clock.near_frameAt_of_le run.overlap_pos.le hshort hlimit) hshared

end FramePayload

/-- **Frames do not drift.**  A plan that compiles has a payload whose frames are near the times
of its layout: at the rate of the compiler and at every other one, as long as the frames of the
video can be counted. -/
theorem Compiler.frames_undrifted {compiler : Compiler Exact} {plan : Plan Exact}
    {modeKey platformKey : String} {layout : Layout Exact}
    (h : compiler.layoutAs plan modeKey platformKey = .ok layout) :
    compiler.framesAs plan modeKey platformKey
        = .ok (FramePayload.ofLayout compiler.clock layout) ∧
      ∃ video : ℚ, layout.videoDuration = .finite video ∧
        ∀ clock : Clock, video * clock.fps ≤ frameLimit →
          Undrifted clock layout (FramePayload.ofLayout clock layout) := by
  obtain ⟨overlap, lengths, run⟩ := Layout.exists_run h
  refine ⟨framesAs_eq_ok_iff.mpr ⟨layout, h, rfl⟩, _, run.video_eq, ?_⟩
  intro clock hlimit
  exact FramePayload.undrifted_ofLayout h run hlimit

/-- The sample lasts for 12.05 seconds, and its frames can be counted at 24 a second. -/
theorem Compiler.frames_undrifted_at_another_rate :
    ∃ layout, standardExact.layoutAs (.sample Exact) "vlog" "tiktok" = .ok layout ∧
      Undrifted (.ofRate 24) layout (FramePayload.ofLayout (.ofRate 24) layout) := by
  have hcompiles : (standardExact.layoutAs (.sample Exact) "vlog" "tiktok").toOption.any
      (fun layout => decide (layout.videoDuration = .finite (241 / 20))) = true := by
    decide +kernel
  obtain ⟨layout, hlayout, hvideo⟩ := exists_of_any hcompiles
  obtain ⟨-, video, hlasts, hundrifted⟩ := frames_undrifted hlayout
  obtain rfl : (241 / 20 : ℚ) = video :=
    Exact.finite.inj ((of_decide_eq_true hvideo).symm.trans hlasts)
  refine ⟨layout, hlayout, hundrifted (.ofRate 24) ?_⟩
  norm_num [Clock.ofRate, frameLimit, UInt64.size]

end Montage
