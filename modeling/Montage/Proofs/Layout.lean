import Montage.Layout
import Montage.Proofs.Clamp
import Montage.Proofs.Numbers.Monotone
import Montage.Proofs.Schedule
import Montage.Proofs.Shingles

/-!
# What every layout has

`Layout.computeAs_eq_ok_iff` takes a computation apart once; everything known of
a layout follows from it.  For numbers of any kind:

* `clips_getElem?` and `overlays_getElem?` say what stands at each index;
* `videoDuration_eq` says that the video ends where its last clip ends.

In exact arithmetic `exists_run` gives the whole schedule as rationals: `Run`
says where every clip stands, and that each leaves room for two overlaps.
-/

namespace Montage

namespace Layout

section General

variable {α : Type} [Scalar α] {plan : Plan α} {modeKey platformKey : String}
  {config : CompilerConfig α} {layout : Layout α}

/-- The overlap of adjacent clips under a mode key. -/
def overlapUnder (α : Type) [Scalar α] (modeKey : String) : α :=
  Schedule.overlapOf (Mode.resolve modeKey).profile.transitionDuration

/-- A plan has a layout exactly when the settings make sense and its footage has
a schedule; then the layout is assembled from that schedule. -/
theorem computeAs_eq_ok_iff :
    computeAs plan modeKey platformKey config = .ok layout ↔
      config.fault? = none ∧ plan.clips ≠ [] ∧
        (∀ clip ∈ plan.clips, Schedule.Accepted (overlapUnder α modeKey) clip) ∧
        layout = assemble plan modeKey platformKey config
          (Schedule.ofLengths (overlapUnder α modeKey) (plan.clips.map Clip.length)) := by
  unfold computeAs schedule
  cases hconfig : config.fault? with
  | some fault => simp
  | none =>
      cases hclips : Schedule.estimateClips
          ((Mode.resolve modeKey).profile (α := α)).transitionDuration plan.clips with
      | error fault =>
          constructor
          · intro h
            cases h
          · rintro ⟨_, hne, hall, _⟩
            have hok := Schedule.estimateClips_eq_ok_iff.mpr ⟨hne, hall, rfl⟩
            rw [hclips] at hok
            cases hok
      | ok schedule =>
          obtain ⟨hne, hall, hschedule⟩ := Schedule.estimateClips_eq_ok_iff.mp hclips
          simp only [Except.ok.injEq, true_and, hschedule]
          constructor
          · intro h
            exact ⟨hne, hall, h.symm⟩
          · rintro ⟨_, _, h⟩
            exact h.symm

omit [Scalar α] in
/-- The clip at an index is placed with its own beginning, if it has one. -/
theorem placeClips_getElem? (profile : ModeProfile α) (volume : α) (index : ℕ)
    (clips : List (Clip α)) (starts : List α) (k : ℕ) :
    (placeClips profile volume index clips starts)[k]? =
      clips[k]?.bind fun clip => starts[k]?.map fun start =>
        placeClip profile volume (index + k) clip start := by
  induction clips generalizing index starts k with
  | nil => simp [placeClips]
  | cons clip clips ih =>
      cases starts with
      | nil => cases h : (clip :: clips)[k]? <;> simp [placeClips]
      | cons start starts =>
          cases k with
          | zero => simp [placeClips]
          | succ k => simp [placeClips, ih, Nat.add_assoc, Nat.add_comm 1 k]

/-- The clip at an index of a layout is the clip of the plan at that index. -/
theorem clips_getElem? (h : computeAs plan modeKey platformKey config = .ok layout) (k : ℕ) :
    layout.clips[k]? =
      plan.clips[k]?.bind fun clip =>
        (Schedule.startsFrom (overlapUnder α modeKey) 0 (plan.clips.map Clip.length))[k]?.map
          fun start => placeClip (Mode.resolve modeKey).profile
            (clipVolume (Mode.resolve modeKey).profile config plan) k clip start := by
  obtain ⟨_, _, _, rfl⟩ := computeAs_eq_ok_iff.mp h
  simp only [assemble, placeClips_getElem?, Nat.zero_add, Schedule.ofLengths]

/-- What is known of a clip of a layout: its origin in the plan, its beginning in
the schedule, its index and its length. -/
theorem exists_clip_of_getElem? (h : computeAs plan modeKey platformKey config = .ok layout)
    {k : ℕ} {placed : ClipPlacement α} (hk : layout.clips[k]? = some placed) :
    ∃ clip, plan.clips[k]? = some clip ∧
      (Schedule.startsFrom (overlapUnder α modeKey) 0 (plan.clips.map Clip.length))[k]?
        = some placed.start ∧
      placed.index = k ∧ placed.length = clip.length := by
  rw [clips_getElem? h, Option.bind_eq_some_iff] at hk
  obtain ⟨clip, hclip, hk⟩ := hk
  obtain ⟨start, hstart, rfl⟩ := Option.map_eq_some_iff.mp hk
  exact ⟨clip, hclip, hstart, rfl, rfl⟩

/-- A layout has all clips of its plan. -/
theorem length_clips (h : computeAs plan modeKey platformKey config = .ok layout) :
    layout.clips.length = plan.clips.length := by
  have hcount : ∀ k : ℕ, layout.clips[k]? = none ↔ plan.clips[k]? = none := by
    intro k
    rw [clips_getElem? h]
    cases hclip : plan.clips[k]? with
    | none => simp
    | some clip =>
        have hk : k < plan.clips.length := (List.getElem?_eq_some_iff.mp hclip).1
        have hstart : k < (Schedule.startsFrom (overlapUnder α modeKey) 0
            (plan.clips.map Clip.length)).length := by
          simpa [Schedule.startsFrom_length] using hk
        simp [List.getElem?_eq_getElem hstart]
  have h1 := (hcount layout.clips.length).mp (by simp)
  have h2 := (hcount plan.clips.length).mpr (by simp)
  rw [List.getElem?_eq_none_iff] at h1 h2
  omega

/-- A layout has footage. -/
theorem clips_ne_nil (h : computeAs plan modeKey platformKey config = .ok layout) :
    layout.clips ≠ [] := by
  have hplan := (computeAs_eq_ok_iff.mp h).2.1
  rw [← List.length_pos_iff] at hplan ⊢
  rwa [length_clips h]

/-- Every clip of a layout has passed the check of its length. -/
theorem lengthFault?_of_mem (h : computeAs plan modeKey platformKey config = .ok layout)
    {placed : ClipPlacement α} (hm : placed ∈ layout.clips) :
    Schedule.lengthFault? (overlapUnder α modeKey) placed.length = none := by
  obtain ⟨k, hk⟩ := List.mem_iff_getElem?.mp hm
  obtain ⟨clip, hclip, _, _, hlength⟩ := exists_clip_of_getElem? h hk
  rw [hlength]
  exact ((computeAs_eq_ok_iff.mp h).2.2.1 clip (List.mem_of_getElem? hclip)).2

/-- Every clip of a layout lasts. -/
theorem length_pos_of_mem [MonotoneScalar α]
    (h : computeAs plan modeKey platformKey config = .ok layout)
    {placed : ClipPlacement α} (hm : placed ∈ layout.clips) : 0 < placed.length := by
  obtain ⟨hfin, hpos, _⟩ := Schedule.lengthFault?_eq_none_iff.mp (lengthFault?_of_mem h hm)
  exact MonotoneScalar.pos_of_not_le_zero hfin hpos

/-- The transitions of a layout are as long as its mode wants them. -/
theorem transitionDuration_eq (h : computeAs plan modeKey platformKey config = .ok layout) :
    layout.transitionDuration = (Mode.resolve modeKey).profile.transitionDuration := by
  obtain ⟨_, _, _, rfl⟩ := computeAs_eq_ok_iff.mp h
  simp only [assemble]

/-- The video ends where its last clip ends. -/
theorem videoDuration_eq (h : computeAs plan modeKey platformKey config = .ok layout)
    {last : ClipPlacement α} (hlast : layout.clips.getLast? = some last) :
    layout.videoDuration = last.start + last.length := by
  rw [List.getLast?_eq_getElem?] at hlast
  obtain ⟨clip, hclip, hstart, _, hlength⟩ := exists_clip_of_getElem? h hlast
  have hcount := length_clips h
  have hpos := List.length_pos_iff.mpr (clips_ne_nil h)
  obtain ⟨_, _, _, hlayout⟩ := computeAs_eq_ok_iff.mp h
  have hvideo : layout.videoDuration =
      Schedule.endFrom (overlapUnder α modeKey) 0 (plan.clips.map Clip.length) := by
    rw [hlayout]
    rfl
  rw [hvideo]
  refine Schedule.endFrom_eq (k := layout.clips.length - 1) ?_ hstart ?_
  · rw [List.length_map]
    omega
  · rw [List.getElem?_map, hclip, hlength]
    rfl

/-- Beneath every video that lasts at all lies a background. -/
theorem background_eq (h : computeAs plan modeKey platformKey config = .ok layout) :
    layout.background =
      backgroundOf (Mode.resolve modeKey).profile config layout.videoDuration := by
  obtain ⟨_, _, _, rfl⟩ := computeAs_eq_ok_iff.mp h
  simp only [assemble]

/-- The caption at an index is placed from the request at that index. -/
theorem overlays_getElem? (h : computeAs plan modeKey platformKey config = .ok layout) (k : ℕ) :
    layout.overlays[k]? =
      plan.overlays[k]?.map
        (placeOverlay (Mode.resolve modeKey).profile (Clamp.ofConfig config)
          layout.videoDuration plan.overlays.length k) := by
  obtain ⟨_, _, _, rfl⟩ := computeAs_eq_ok_iff.mp h
  simp only [assemble, List.getElem?_map, List.getElem?_zipIdx, Option.map_map, Nat.zero_add,
    Function.comp_def]

/-- The profile of a layout is that of the mode of its key. -/
theorem modeProfile_eq (h : computeAs plan modeKey platformKey config = .ok layout) :
    layout.modeProfile = (Mode.resolve modeKey).profile := by
  obtain ⟨_, _, _, rfl⟩ := computeAs_eq_ok_iff.mp h
  simp only [assemble]

/-- The background has the color of the mode. -/
theorem color_of_background (h : computeAs plan modeKey platformKey config = .ok layout)
    {background : Background α} (hb : layout.background = some background) :
    background.color = layout.modeProfile.backgroundColor := by
  rw [background_eq h, backgroundOf] at hb
  rw [modeProfile_eq h]
  by_cases hvideo : 0 < layout.videoDuration
  · rw [if_pos hvideo] at hb
    rw [← Option.some.inj hb]
  · rw [if_neg hvideo] at hb
    exact absurd hb (Option.some_ne_none background).symm

/-- The clips of a layout are numbered from 0. -/
theorem map_index_clips (h : computeAs plan modeKey platformKey config = .ok layout) :
    layout.clips.map ClipPlacement.index = List.range layout.clips.length := by
  refine List.ext_getElem (by simp) ?_
  intro k hk _
  rw [List.length_map] at hk
  obtain ⟨_, _, _, hindex, _⟩ := exists_clip_of_getElem? h (List.getElem?_eq_getElem hk)
  rw [List.getElem_map, List.getElem_range, hindex]

/-- The captions keep their order too. -/
theorem map_index_overlays (h : computeAs plan modeKey platformKey config = .ok layout) :
    layout.overlays.map OverlayPlacement.index = List.range layout.overlays.length := by
  refine List.ext_getElem (by simp) ?_
  intro k hk _
  rw [List.length_map] at hk
  have hplaced := List.getElem?_eq_getElem hk
  rw [overlays_getElem? h] at hplaced
  obtain ⟨overlay, _, hoverlay⟩ := Option.map_eq_some_iff.mp hplaced
  rw [List.getElem_map, List.getElem_range, ← hoverlay]
  rfl

omit [Scalar α] in
/-- Behind each clip but the last stands a transition: the entry of the next. -/
theorem joinsOf_getElem? (clips : List (ClipPlacement α)) (k : ℕ) :
    (joinsOf clips)[k]? =
      clips[k]?.bind fun clip => clips[k + 1]?.map fun next =>
        (clip.index, next.transition.entry) := by
  induction clips generalizing k with
  | nil => simp [joinsOf]
  | cons clip rest ih =>
      cases rest with
      | nil => cases k <;> simp [joinsOf]
      | cons next rest =>
          cases k with
          | zero => simp [joinsOf]
          | succ k => simp [joinsOf, ih]

omit [Scalar α] in
/-- There is a join between any two neighbours. -/
theorem length_joinsOf (clips : List (ClipPlacement α)) :
    (joinsOf clips).length = clips.length - 1 := by
  induction clips with
  | nil => rfl
  | cons clip rest ih =>
      cases rest with
      | nil => rfl
      | cons next rest => simp [joinsOf, ih]

/-- There is a warning for each caption that the clamp moves, and for no other. -/
theorem mem_overlayWarnings {clamp : Clamp α} {video : α} {overlays : List (Overlay α)}
    {warning : Warning α} :
    warning ∈ overlayWarnings clamp video overlays ↔
      ∃ index overlay, overlays[index]? = some overlay ∧
        (clamp.place video (requestedSpan overlay)).differs (requestedSpan overlay) = true ∧
        warning = .overlayAdjusted index (requestedSpan overlay)
          (clamp.place video (requestedSpan overlay)) := by
  rw [overlayWarnings, List.mem_filterMap]
  constructor
  · rintro ⟨⟨overlay, index⟩, hentry, hwarning⟩
    refine ⟨index, overlay, List.mk_mem_zipIdx_iff_getElem?.mp hentry, ?_⟩
    change (if _ then _ else _) = _ at hwarning
    by_cases hmoves : (clamp.place video (requestedSpan overlay)).differs (requestedSpan overlay)
    · rw [if_pos hmoves] at hwarning
      exact ⟨hmoves, (Option.some.inj hwarning).symm⟩
    · rw [if_neg hmoves] at hwarning
      cases hwarning
  · rintro ⟨index, overlay, hoverlay, hmoves, rfl⟩
    exact ⟨(overlay, index), List.mk_mem_zipIdx_iff_getElem?.mpr hoverlay, if_pos hmoves⟩

/-- A layout has captions when its plan has. -/
theorem isEmpty_overlays (h : computeAs plan modeKey platformKey config = .ok layout) :
    layout.overlays.isEmpty = plan.overlays.isEmpty := by
  obtain ⟨_, _, _, rfl⟩ := computeAs_eq_ok_iff.mp h
  cases hoverlays : plan.overlays with
  | nil => simp [assemble, hoverlays]
  | cons overlay rest => simp [assemble, hoverlays]

end General

/-! ## Exact arithmetic -/

section ExactTimes

open Schedule

/-- The overlap under a mode key is the mode's, and it is positive. -/
theorem exists_overlapUnder (modeKey : String) :
    ∃ overlap : ℚ, 0 < overlap ∧
      ((Mode.resolve modeKey).profile (α := Exact)).transitionDuration = .finite overlap ∧
      overlapUnder Exact modeKey = .finite overlap := by
  have htable : ∃ overlap : ℚ, 0 < overlap ∧
      ((Mode.resolve modeKey).profile (α := Exact)).transitionDuration = .finite overlap := by
    cases Mode.resolve modeKey <;> refine ⟨_, ?_, rfl⟩ <;> norm_num [Exact.decimal]
  obtain ⟨overlap, hpos, hmode⟩ := htable
  refine ⟨overlap, hpos, hmode, ?_⟩
  rw [overlapUnder, hmode, overlapOf, Exact.ofNat_eq, Exact.atLeast_finite]
  simp [hpos.le]

/-- A length that passed its check is a rational that leaves a second clear of
both overlaps. -/
theorem exists_length_of_lengthFault? {overlap : ℚ} {length : Exact}
    (h : lengthFault? (.finite overlap) length = none) :
    ∃ l : ℚ, length = .finite l ∧ 2 * overlap + 1 ≤ l + 1 / 10 ^ 9 := by
  obtain ⟨hfin, _, hlong⟩ := lengthFault?_eq_none_iff.mp h
  obtain ⟨l, rfl⟩ := Exact.isFinite_iff.mp hfin
  refine ⟨l, rfl, ?_⟩
  simp only [minLength, Exact.ofScientific_eq, Exact.finite_mul_finite, Exact.finite_add_finite,
    Exact.finite_lt_finite, Exact.decimal, not_lt] at hlong
  norm_num at hlong ⊢
  linarith

/-- Lengths that passed their checks are rationals, and roomy. -/
theorem exists_rationals_of_lengthFault? {overlap : ℚ} {lengths : List Exact}
    (h : ∀ length ∈ lengths, lengthFault? (.finite overlap) length = none) :
    ∃ ls : List ℚ, lengths = ls.map Exact.finite ∧
      ∀ l ∈ ls, 2 * overlap + 1 ≤ l + 1 / 10 ^ 9 := by
  have hfinite : ∀ length ∈ lengths, Scalar.isFinite length = true :=
    fun length hlength => (lengthFault?_eq_none_iff.mp (h length hlength)).1
  obtain ⟨ls, rfl⟩ := Exact.exists_rationals hfinite
  refine ⟨ls, rfl, ?_⟩
  intro l hl
  obtain ⟨l', heq, hroomy⟩ := exists_length_of_lengthFault? (h _ (List.mem_map_of_mem hl))
  cases heq
  exact hroomy

/-- A layout as rational times: clips of the given lengths, each beginning one
overlap before the end of the one in front of it, and each long enough for a
second clear of two overlaps. -/
structure Run (layout : Layout Exact) (overlap : ℚ) (lengths : List ℚ) : Prop where
  overlap_pos : 0 < overlap
  overlap_eq : layout.transitionDuration = .finite overlap
  lengths_ne_nil : lengths ≠ []
  roomy : ∀ length ∈ lengths, 2 * overlap + 1 ≤ length + 1 / 10 ^ 9
  count : layout.clips.length = lengths.length
  clip_at : ∀ (k : ℕ) clip, layout.clips[k]? = some clip →
    clip.start = .finite (offset overlap lengths k) ∧
      clip.length = .finite (lengths.getD k 0)
  video_eq : layout.videoDuration = .finite (stop overlap lengths (lengths.length - 1))

variable {plan : Plan Exact} {modeKey platformKey : String} {config : CompilerConfig Exact}
  {layout : Layout Exact}

/-- The lengths of a plan that has a layout are rationals, and roomy. -/
theorem exists_lengths {overlap : ℚ} (hoverlap : overlapUnder Exact modeKey = .finite overlap)
    (h : computeAs plan modeKey platformKey config = .ok layout) :
    ∃ lengths : List ℚ, plan.clips.map Clip.length = lengths.map Exact.finite ∧
      ∀ l ∈ lengths, 2 * overlap + 1 ≤ l + 1 / 10 ^ 9 := by
  apply exists_rationals_of_lengthFault?
  intro length hlength
  obtain ⟨clip, hclip, rfl⟩ := List.mem_map.mp hlength
  have haccepted := ((computeAs_eq_ok_iff.mp h).2.2.1 clip hclip).2
  rwa [hoverlap] at haccepted

/-- Every layout in exact arithmetic is a run of rational times. -/
theorem exists_run (h : computeAs plan modeKey platformKey config = .ok layout) :
    ∃ overlap lengths, Run layout overlap lengths := by
  obtain ⟨overlap, hpos, hmode, hoverlap⟩ := exists_overlapUnder modeKey
  obtain ⟨lengths, hlengths, hroomy⟩ := exists_lengths hoverlap h
  have hne := (computeAs_eq_ok_iff.mp h).2.1
  have hcount : layout.clips.length = lengths.length := by
    rw [length_clips h, ← List.length_map Clip.length, hlengths, List.length_map]
  -- starts are running sums, so they are the offsets of the lengths
  have hclip : ∀ (k : ℕ) clip, layout.clips[k]? = some clip →
      clip.start = .finite (offset overlap lengths k) ∧
        clip.length = .finite (lengths.getD k 0) := by
    intro k placed hk
    obtain ⟨clip, hclip, hstart, _, hlength⟩ := exists_clip_of_getElem? h hk
    have hkl : k < lengths.length := by
      rw [← hcount]
      exact (List.getElem?_eq_some_iff.mp hk).1
    rw [hoverlap, hlengths, Exact.ofNat_eq, startsFrom_finite] at hstart
    have hsame := congrArg (fun xs : List Exact => xs[k]?) hlengths
    simp only [List.getElem?_map, hclip, Option.map_some] at hsame
    simp [hkl] at hstart hsame
    exact ⟨hstart.symm, by rw [hlength, hsame, List.getD_eq_getElem _ _ hkl]⟩
  refine ⟨overlap, lengths, hpos, ?_, ?_, hroomy, hcount, hclip, ?_⟩
  · rw [transitionDuration_eq h]
    exact hmode
  · intro hnil
    rw [hnil] at hlengths
    exact hne (by simpa using hlengths)
  · have hlast : layout.clips.getLast? = some (layout.clips.getLast (clips_ne_nil h)) :=
      List.getLast?_eq_some_getLast _
    have hend := videoDuration_eq h hlast
    rw [List.getLast?_eq_getElem?] at hlast
    obtain ⟨hstart, hlength⟩ := hclip _ _ hlast
    rw [hend, hstart, hlength, Exact.finite_add_finite, hcount]
    rfl

namespace Run

variable {overlap : ℚ} {lengths : List ℚ} (run : Run layout overlap lengths)

include run

theorem length_pos : 0 < lengths.length := List.length_pos_iff.mpr run.lengths_ne_nil

/-- Every clip of a run keeps a second clear of two overlaps, up to the tolerance. -/
theorem room {k : ℕ} (hk : k < lengths.length) :
    2 * overlap + 1 ≤ lengths.getD k 0 + 1 / 10 ^ 9 := by
  rw [List.getD_eq_getElem _ _ hk]
  exact run.roomy _ (List.getElem_mem hk)

/-- Clips do not begin before their predecessors. -/
theorem offset_le_offset_succ {k : ℕ} (hk : k < lengths.length) :
    offset overlap lengths k ≤ offset overlap lengths (k + 1) := by
  have hroom := run.room hk
  have hpos := run.overlap_pos
  rw [offset_succ overlap hk, stop]
  linarith

/-- No clip begins before the video. -/
theorem offset_nonneg {k : ℕ} (hk : k < lengths.length) : 0 ≤ offset overlap lengths k := by
  induction k with
  | zero => rw [offset_zero]
  | succ k ih =>
      have hk' : k < lengths.length := by omega
      exact (ih hk').trans (run.offset_le_offset_succ hk')

/-- Clips do not end before their predecessors. -/
theorem stop_le_stop_succ {k : ℕ} (hk : k + 1 < lengths.length) :
    stop overlap lengths k ≤ stop overlap lengths (k + 1) := by
  have hroom := run.room hk
  have hpos := run.overlap_pos
  rw [stop_succ overlap (by omega)]
  linarith

/-- No clip ends behind the last one. -/
theorem stop_le_stop_last {k : ℕ} (hk : k < lengths.length) :
    stop overlap lengths k ≤ stop overlap lengths (lengths.length - 1) := by
  have hafter : ∀ m, k + m < lengths.length →
      stop overlap lengths k ≤ stop overlap lengths (k + m) := by
    intro m
    induction m with
    | zero => exact fun _ => le_rfl
    | succ m ih =>
        intro hm
        exact (ih (by omega)).trans (run.stop_le_stop_succ hm)
  have hlast := hafter (lengths.length - 1 - k) (by omega)
  rwa [show k + (lengths.length - 1 - k) = lengths.length - 1 by omega] at hlast

/-- The last clip ends after the video has begun. -/
theorem stop_last_pos : 0 < stop overlap lengths (lengths.length - 1) := by
  have hlast : lengths.length - 1 < lengths.length := Nat.sub_lt run.length_pos one_pos
  have hnonneg := run.offset_nonneg hlast
  have hroom := run.room hlast
  have hpos := run.overlap_pos
  rw [stop]
  linarith

/-- The clips of a run lie like shingles, on every scale on which times are read
in their order. -/
theorem shingled {ι T : Type} [Preorder T] {spans : List ι} {first last : ι → T} {read : ℚ → T}
    (hread : Monotone read) (hcount : spans.length = lengths.length)
    (hspans : ∀ (k : ℕ) a, spans[k]? = some a →
      first a = read (offset overlap lengths k) ∧ last a = read (stop overlap lengths k)) :
    Shingled first last spans := by
  have hbound : ∀ {k : ℕ} {a : ι}, spans[k]? = some a → k < lengths.length := by
    intro k a ha
    rw [← hcount]
    exact (List.getElem?_eq_some_iff.mp ha).1
  have hpos := run.overlap_pos
  constructor
  · intro k a b ha hb
    rw [(hspans k a ha).1, (hspans _ b hb).1]
    exact hread (run.offset_le_offset_succ (hbound ha))
  · intro k a b ha hb
    rw [(hspans k a ha).2, (hspans _ b hb).1, offset_succ overlap (hbound ha)]
    exact hread (by linarith)
  · intro k a c ha hc
    have hbetween : k + 1 < lengths.length := by
      have := hbound hc
      omega
    have hroom := run.room hbetween
    rw [(hspans k a ha).2, (hspans _ c hc).1, offset_succ overlap hbetween,
      stop_succ overlap (hbound ha)]
    exact hread (by linarith)

/-- The clips of a run lie like shingles in time. -/
theorem shingled_times :
    Shingled (offset overlap lengths) (stop overlap lengths) (List.range lengths.length) := by
  refine run.shingled monotone_id List.length_range ?_
  intro k a ha
  obtain ⟨hk, rfl⟩ := List.getElem?_eq_some_iff.mp ha
  rw [List.getElem_range]
  exact ⟨rfl, rfl⟩

end Run

/-- A run lasts. -/
theorem Run.video_pos {overlap : ℚ} {lengths : List ℚ} (run : Run layout overlap lengths) :
    0 < layout.videoDuration := by
  rw [run.video_eq, Exact.ofNat_eq, Exact.finite_lt_finite, Nat.cast_zero]
  exact run.stop_last_pos

/-- In exact arithmetic every layout has a background, and it goes on behind the
video for a time that is not negative. -/
theorem exists_background (h : computeAs plan modeKey platformKey config = .ok layout) :
    ∃ tail : ℚ, 0 ≤ tail ∧ config.backgroundTail = .finite tail ∧
      layout.background = some ⟨((Mode.resolve modeKey).profile (α := Exact)).backgroundColor, 0,
        layout.videoDuration + config.backgroundTail⟩ := by
  obtain ⟨overlap, lengths, run⟩ := exists_run h
  obtain ⟨tail, htail, htailEq⟩ :=
    CompilerConfig.exists_margin (computeAs_eq_ok_iff.mp h).1 .backgroundTail
  refine ⟨tail, htail, htailEq, ?_⟩
  rw [background_eq h, backgroundOf, if_pos run.video_pos]

/-- In exact arithmetic every caption of a layout stands where its clamp leaves
it. -/
theorem exists_fits (h : computeAs plan modeKey platformKey config = .ok layout) {video : ℚ}
    (hvideo : layout.videoDuration = .finite video) (hnonneg : 0 ≤ video) :
    ∃ minimum : ℚ, 0 ≤ minimum ∧ config.minOverlay = .finite minimum ∧
      ∀ placed ∈ layout.overlays, ∃ s d : ℚ, placed.start = .finite s ∧
        placed.duration = .finite d ∧ Clamp.Fits minimum video s d := by
  obtain ⟨lookback, minimum, hlookback, hmin, hminimum, hclamp⟩ :=
    Clamp.exists_ofConfig (computeAs_eq_ok_iff.mp h).1
  refine ⟨minimum, hmin, hminimum, ?_⟩
  intro placed hplaced
  obtain ⟨k, hk⟩ := List.mem_iff_getElem?.mp hplaced
  rw [overlays_getElem? h, hclamp, hvideo] at hk
  obtain ⟨overlay, _, rfl⟩ := Option.map_eq_some_iff.mp hk
  obtain ⟨s, d, hplace, hfits⟩ :=
    Clamp.place_fits minimum hlookback hnonneg (requestedSpan overlay)
  refine ⟨s, d, ?_, ?_, hfits⟩
  · exact congrArg Span.start hplace
  · exact congrArg Span.duration hplace

end ExactTimes

end Layout

end Montage
