import Mathlib.Algebra.Order.BigOperators.Group.List
import Montage.Proofs.Overflow
import Montage.Proofs.Steady
import Montage.Proofs.Twice

/-!
# What more footage can change

Clips are scheduled, styled and joined from the first one on, so footage that is added at
the end leaves in place what was there: `Layout.Prolonged` and `FramePayload.Prolonged` say
what that is.  The recursions that place clips are taken one by one for this, each with a
lemma about two lists in a row.

The video gets longer with every clip.  In exact arithmetic it grows by the length of each
added clip less one overlap; on doubles it may fail to grow, but it does not get shorter
(`Schedule.le_endFrom`): an added clip lasts two overlaps at least, and no rounding takes
more than that.  So captions that stood where they were asked for stay there, as
`Clamp.place_of_le` has it.

Doubles bring one exception.  More footage may add up to more than the largest of them, and
then the clamp takes the video for one that has no time at all: `more_footage_moves_caption`
has a caption that is moved by footage behind it.  `Compiler.appending_conserves` is what
holds in general.
-/

namespace Montage

namespace Schedule

open RoundedScalar

variable {α : Type} [Scalar α] [RoundedScalar α]

/-- However the sums round, footage that begins no more than two overlaps before an instant
does not end before it. -/
theorem le_endFrom {overlap cursor : α} {lengths : List α} {w b : ℚ}
    (hoverlap : toExact overlap = .finite w) (hw : 0 ≤ w) (hwb : w ≤ b)
    (hb : closest α (.finite b) = .finite b) (hlengths : ∀ length ∈ lengths, Holds w length)
    (hne : lengths ≠ []) (hcursor : .finite (b - 2 * w) ≤ toExact cursor) :
    .finite b ≤ toExact (endFrom overlap cursor lengths) := by
  induction lengths generalizing cursor with
  | nil => exact absurd rfl hne
  | cons length rest ih =>
      have hstop : .finite b ≤ toExact (cursor + length) := by
        obtain ⟨q, hq, hlength⟩ := hlengths length List.mem_cons_self
        have hsum := Exact.add_le_add_right hcursor q
        rw [Exact.finite_add_finite] at hsum
        have hroom : Exact.finite b ≤ .finite (b - 2 * w + q) :=
          Exact.finite_le_finite.mpr (by linarith)
        have hrounded := closest_mono (α := α) (Exact.le_trans hroom hsum)
        rwa [hb, ← hlength, ← toExact_add] at hrounded
      cases rest with
      | nil => exact hstop
      | cons second rest =>
          apply ih (fun l hl => hlengths l (List.mem_cons_of_mem _ hl))
            (List.cons_ne_nil second rest)
          have hless := Exact.add_le_add_right hstop (-w)
          rw [Exact.finite_add_finite, ← sub_eq_add_neg] at hless
          have hrounded := closest_mono (α := α) hless
          have hnext : toExact (cursor + length - overlap)
              = closest α (toExact (cursor + length) + .finite (-w)) := by
            rw [toExact_sub, hoverlap, Exact.sub_eq_add_neg, Exact.neg_finite]
          exact Exact.le_trans (sub_two_mul_le hb hw hwb) (hnext ▸ hrounded)

end Schedule

namespace Layout

section Rows

variable {α : Type}

/-- Clips behind others are placed as they would be by themselves, with indices that go
on. -/
theorem placeClips_append (profile : ModeProfile α) (volume : α) (index : ℕ)
    {clips : List (Clip α)} {starts : List α} (added : List (Clip α)) (further : List α)
    (h : starts.length = clips.length) :
    placeClips profile volume index (clips ++ added) (starts ++ further)
      = placeClips profile volume index clips starts
        ++ placeClips profile volume (index + clips.length) added further := by
  induction clips generalizing index starts with
  | nil =>
      obtain rfl := List.eq_nil_of_length_eq_zero h
      rfl
  | cons clip clips ih =>
      cases starts with
      | nil => cases h
      | cons start starts =>
          rw [List.cons_append, List.cons_append, placeClips, placeClips, List.cons_append,
            ih (index + 1) (Nat.succ.inj h), List.length_cons, Nat.add_right_comm, Nat.add_assoc]

/-- More clips leave the joins of those in front of them as they are. -/
theorem joinsOf_isPrefix_append (clips added : List (ClipPlacement α)) :
    joinsOf clips <+: joinsOf (clips ++ added) := by
  induction clips with
  | nil => exact List.nil_prefix
  | cons clip rest ih =>
      cases rest with
      | nil => exact List.nil_prefix
      | cons next rest => exact List.cons_prefix_cons.mpr ⟨rfl, ih⟩

end Rows

end Layout

/-! ## Plans with more footage -/

/-- The plan with more clips at the end. -/
def Plan.appended {α : Type} (plan : Plan α) (added : List (Clip α)) : Plan α :=
  { plan with clips := plan.clips ++ added }

/-- A warning that the caption at an index has moved. -/
def Warning.adjusts {α : Type} (k : ℕ) : Warning α → Bool
  | .overlayAdjusted index _ _ => index == k
  | _ => false

namespace Layout

variable {α : Type}

/-- All clips of a layout stand at the beginning of another, as they are, and `count` more
behind them. -/
structure Prolonged (layout longer : Layout α) (count : ℕ) : Prop where
  clips : layout.clips <+: longer.clips
  count_eq : longer.clips.length = layout.clips.length + count

/-- The layout warns that the caption at an index is not where it was asked for. -/
def Adjusts (layout : Layout α) (k : ℕ) : Prop :=
  ∃ requested placed, Warning.overlayAdjusted k requested placed ∈ layout.warnings

/-- Whether a caption had to move can be looked up in the warnings. -/
theorem adjusts_iff_any (layout : Layout α) (k : ℕ) :
    layout.Adjusts k ↔ layout.warnings.any (Warning.adjusts k) = true := by
  rw [List.any_eq_true]
  constructor
  · rintro ⟨requested, placed, hmem⟩
    exact ⟨_, hmem, beq_self_eq_true k⟩
  · rintro ⟨warning, hmem, htest⟩
    cases warning with
    | overlayAdjusted index requested placed =>
        obtain rfl : index = k := beq_iff_eq.mp htest
        exact ⟨requested, placed, hmem⟩
    | _ => cases htest

instance (layout : Layout α) (k : ℕ) : Decidable (layout.Adjusts k) :=
  decidable_of_iff _ (layout.adjusts_iff_any k).symm

/-- What a layout has left where it was asked for, another one leaves in the same place. -/
def KeepsCaptions (layout longer : Layout α) : Prop :=
  ∀ k caption, layout.overlays[k]? = some caption → ¬ layout.Adjusts k →
    longer.overlays[k]? = some caption ∧ ¬ longer.Adjusts k

end Layout

/-- A payload in frames has all sequences and blends of another, and opens alike. -/
structure FramePayload.Prolonged {α : Type} (payload longer : FramePayload α) : Prop where
  sequences : payload.sequences <+: longer.sequences
  transitions : payload.transitions <+: longer.transitions
  intro_eq : longer.intro = payload.intro

namespace Layout

section Prefixes

variable {α : Type} [Scalar α] {plan : Plan α} {added : List (Clip α)}
  {modeKey platformKey : String} {config : CompilerConfig α} {layout longer : Layout α}

/-- The clips of a plan keep their places when others are appended. -/
theorem clips_isPrefix (h : computeAs plan modeKey platformKey config = .ok layout)
    (hlonger : computeAs (plan.appended added) modeKey platformKey config = .ok longer) :
    layout.clips <+: longer.clips := by
  obtain ⟨_, _, _, rfl⟩ := computeAs_eq_ok_iff.mp h
  obtain ⟨_, _, _, rfl⟩ := computeAs_eq_ok_iff.mp hlonger
  have hlengths : (plan.appended added).clips.map Clip.length
      = plan.clips.map Clip.length ++ added.map Clip.length := List.map_append
  obtain ⟨further, hstarts⟩ := Schedule.startsFrom_isPrefix_append (overlapUnder α modeKey) 0
    (plan.clips.map Clip.length) (added.map Clip.length)
  have hcount : (Schedule.startsFrom (overlapUnder α modeKey) 0
      (plan.clips.map Clip.length)).length = plan.clips.length := by
    rw [Schedule.startsFrom_length, List.length_map]
  rw [clips_assemble, clips_assemble]
  simp only [Schedule.ofLengths]
  rw [hlengths, ← hstarts]
  refine ⟨_, (placeClips_append _ _ 0 added further hcount).symm⟩

/-- A layout to which footage has been appended is a prolonged one, clips, joins and
durations alike. -/
theorem prolonged (h : computeAs plan modeKey platformKey config = .ok layout)
    (hlonger : computeAs (plan.appended added) modeKey platformKey config = .ok longer) :
    layout.Prolonged longer added.length where
  clips := clips_isPrefix h hlonger
  count_eq := by
    rw [length_clips h, length_clips hlonger]
    exact List.length_append

/-- The sequences, the blends between them and the way the video opens follow the clips. -/
theorem framesOf_prolonged (h : computeAs plan modeKey platformKey config = .ok layout)
    (hlonger : computeAs (plan.appended added) modeKey platformKey config = .ok longer)
    (compiler : Compiler α) :
    (compiler.framesOf layout).Prolonged (compiler.framesOf longer) := by
  obtain ⟨further, hclips⟩ := clips_isPrefix h hlonger
  have hblend : longer.transitionDuration = layout.transitionDuration := by
    rw [transitionDuration_eq h, transitionDuration_eq hlonger]
  constructor
  case sequences =>
    change layout.clips.map _ <+: longer.clips.map _
    rw [← hclips, List.map_append]
    exact List.prefix_append _ _
  case transitions =>
    simp only [Compiler.framesOf, FramePayload.ofLayout, hblend, joins, ← hclips]
    exact (joinsOf_isPrefix_append layout.clips further).map _
  case intro_eq =>
    have hopening : FramePayload.opening longer = FramePayload.opening layout := by
      unfold FramePayload.opening
      rw [← hclips, List.head?_append_of_ne_nil _ (clips_ne_nil h), modeProfile_eq h,
        modeProfile_eq hlonger]
    simp only [Compiler.framesOf, FramePayload.ofLayout, hblend, hopening]

/-- The video goes on from one overlap before its end. -/
theorem videoDuration_appended (h : computeAs plan modeKey platformKey config = .ok layout)
    (hlonger : computeAs (plan.appended added) modeKey platformKey config = .ok longer)
    (hadded : added ≠ []) :
    longer.videoDuration = Schedule.endFrom (overlapUnder α modeKey)
      (layout.videoDuration - overlapUnder α modeKey) (added.map Clip.length) := by
  obtain ⟨_, hne, _, rfl⟩ := computeAs_eq_ok_iff.mp h
  obtain ⟨_, _, _, rfl⟩ := computeAs_eq_ok_iff.mp hlonger
  have hlengths : (plan.appended added).clips.map Clip.length
      = plan.clips.map Clip.length ++ added.map Clip.length := List.map_append
  have hfirst : plan.clips.map Clip.length ≠ [] := by simpa using hne
  have hfurther : added.map Clip.length ≠ [] := by simpa using hadded
  have hsplit := Schedule.endFrom_append (overlapUnder α modeKey) 0 hfirst hfurther
  rw [← hlengths] at hsplit
  exact hsplit

/-- A layout warns of the captions that the clamp has moved. -/
theorem adjusts_iff (h : computeAs plan modeKey platformKey config = .ok layout) (k : ℕ) :
    layout.Adjusts k ↔ ∃ overlay, plan.overlays[k]? = some overlay ∧
      ((Clamp.ofConfig config).place layout.videoDuration (requestedSpan overlay)).differs
        (requestedSpan overlay) = true := by
  obtain ⟨_, _, _, rfl⟩ := computeAs_eq_ok_iff.mp h
  unfold Adjusts
  rw [warnings_assemble]
  constructor
  · rintro ⟨requested, placed, hmem⟩
    rw [List.mem_append, List.mem_append, List.mem_append] at hmem
    rcases hmem with ((hmem | hmem) | hmem) | hmem
    · rw [Option.mem_toList, modeWarning?] at hmem
      cases hkey : Mode.lookup? modeKey with
      | none => simp [hkey] at hmem
      | some mode => simp [hkey] at hmem
    · rw [Option.mem_toList, platformWarning?] at hmem
      cases hkey : Platform.lookup? platformKey with
      | none => simp [hkey] at hmem
      | some platform => simp [hkey] at hmem
    · obtain ⟨index, overlay, hoverlay, hdiffers, hwarning⟩ := mem_overlayWarnings.mp hmem
      obtain rfl : k = index := by cases hwarning; rfl
      exact ⟨overlay, hoverlay, hdiffers⟩
    · rw [Option.mem_toList, durationWarning?, Option.ite_none_right_eq_some] at hmem
      cases hmem.2
  · rintro ⟨overlay, hoverlay, hdiffers⟩
    have hmem := mem_overlayWarnings.mpr ⟨k, overlay, hoverlay, hdiffers, rfl⟩
    exact ⟨_, _, List.mem_append_left _ (List.mem_append_right _ hmem)⟩

end Prefixes

/-! ## Videos that get longer -/

section Longer

open RoundedScalar

variable {α : Type} [Scalar α] [RoundedScalar α] {plan : Plan α} {added : List (Clip α)}
  {modeKey platformKey : String} {config : CompilerConfig α} {layout longer : Layout α}

/-- Footage that has been appended to a plan with a layout is as long as its mode demands. -/
theorem holds_of_appended {w : ℚ} (hroomy : Roomy α modeKey w)
    (hlonger : computeAs (plan.appended added) modeKey platformKey config = .ok longer) :
    ∀ length ∈ added.map Clip.length, Schedule.Holds w length := by
  obtain ⟨_, _, hclips, _⟩ := computeAs_eq_ok_iff.mp hlonger
  exact hroomy.holds_of_accepted fun clip hclip => hclips clip (List.mem_append_right _ hclip)

/-- A video lasts for one overlap at least. -/
theorem overlap_le_videoDuration {w : ℚ} (hroomy : Roomy α modeKey w)
    (h : computeAs plan modeKey platformKey config = .ok layout) :
    .finite w ≤ toExact layout.videoDuration := by
  obtain ⟨_, hne, hclips, rfl⟩ := computeAs_eq_ok_iff.mp h
  have hzero : Exact.finite (w - 2 * w) ≤ toExact (0 : α) := by
    rw [toExact_zero, Exact.finite_le_finite]
    linarith [hroomy.pos]
  have hlengths := hroomy.holds_of_accepted hclips
  apply Schedule.le_endFrom hroomy.toExact_eq hroomy.pos.le le_rfl
    (closest_of_toExact hroomy.toExact_eq) hlengths _ hzero
  simpa using hne

/-- More footage does not make a video shorter. -/
theorem le_videoDuration {w v : ℚ} (hroomy : Roomy α modeKey w)
    (h : computeAs plan modeKey platformKey config = .ok layout)
    (hlonger : computeAs (plan.appended added) modeKey platformKey config = .ok longer)
    (hadded : added ≠ []) (hvideo : toExact layout.videoDuration = .finite v) :
    .finite v ≤ toExact longer.videoDuration := by
  have hwv := overlap_le_videoDuration hroomy h
  rw [hvideo, Exact.finite_le_finite] at hwv
  have hkept := closest_of_toExact hvideo
  rw [videoDuration_appended h hlonger hadded]
  apply Schedule.le_endFrom hroomy.toExact_eq hroomy.pos.le hwv hkept
    (holds_of_appended hroomy hlonger) (by simpa using hadded)
  rw [toExact_sub, hvideo, hroomy.toExact_eq, Exact.finite_sub_finite]
  exact sub_two_mul_le hkept hroomy.pos.le hwv

/-- A request that is met stays so when footage is added, unless the video stops having an
end. -/
theorem place_appended {w : ℚ} (hroomy : Roomy α modeKey w)
    (h : computeAs plan modeKey platformKey config = .ok layout)
    (hlonger : computeAs (plan.appended added) modeKey platformKey config = .ok longer)
    (hadded : added ≠ [])
    (hends : Scalar.isFinite longer.videoDuration = Scalar.isFinite layout.videoDuration)
    {request : Span α}
    (hmet : ((Clamp.ofConfig config).place layout.videoDuration request).differs request = false) :
    (Clamp.ofConfig config).place longer.videoDuration request
      = (Clamp.ofConfig config).place layout.videoDuration request := by
  by_cases hfinite : Scalar.isFinite layout.videoDuration = true
  · have hvideo := hfinite
    rw [isFinite_toExact, Exact.isFinite_iff] at hvideo
    rw [hfinite, isFinite_toExact, Exact.isFinite_iff] at hends
    obtain ⟨v, hv⟩ := hvideo
    obtain ⟨v', hv'⟩ := hends
    have hlasts := overlap_le_videoDuration hroomy h
    have hgrows := le_videoDuration hroomy h hlonger hadded hv
    rw [hv, Exact.finite_le_finite] at hlasts
    rw [hv', Exact.finite_le_finite] at hgrows
    have hpos : 0 < v := hroomy.pos.trans_le hlasts
    obtain ⟨_, _, hclamp⟩ := Clamp.exists_margins (computeAs_eq_ok_iff.mp h).1
    exact Clamp.place_of_le hclamp ⟨hpos, hv⟩ ⟨hpos.trans_le hgrows, hv'⟩ hgrows hmet
  · -- The clamp does not rely on either video.
    have hrelied : ∀ video : α, ¬ Scalar.isFinite video = true → Clamp.reliable video = 0 :=
      fun video hvideo => if_neg hvideo
    rw [Clamp.place, Clamp.place, hrelied _ hfinite, hrelied _ (hends ▸ hfinite)]

/-- Captions that stood inside the video stay where they were when the video becomes longer,
as long as both videos end or neither does. -/
theorem keepsCaptions {w : ℚ} (hroomy : Roomy α modeKey w)
    (h : computeAs plan modeKey platformKey config = .ok layout)
    (hlonger : computeAs (plan.appended added) modeKey platformKey config = .ok longer)
    (hadded : added ≠ [])
    (hends : Scalar.isFinite longer.videoDuration = Scalar.isFinite layout.videoDuration) :
    layout.KeepsCaptions longer := by
  intro k caption hcaption hmet
  rw [adjusts_iff h] at hmet
  rw [adjusts_iff hlonger]
  rw [overlays_getElem? h] at hcaption
  rw [overlays_getElem? hlonger]
  have hoverlays : (plan.appended added).overlays = plan.overlays := rfl
  rw [hoverlays]
  obtain ⟨overlay, hoverlay, rfl⟩ := Option.map_eq_some_iff.mp hcaption
  have hstays : ((Clamp.ofConfig config).place layout.videoDuration
      (requestedSpan overlay)).differs (requestedSpan overlay) = false := by
    rw [← Bool.not_eq_true]
    intro hdiffers
    exact hmet ⟨overlay, hoverlay, hdiffers⟩
  have hsame := place_appended hroomy h hlonger hadded hends hstays
  constructor
  · rw [hoverlay, Option.map_some, placeOverlay, hsame]
    rfl
  · rintro ⟨other, hother, hdiffers⟩
    obtain rfl := Option.some.inj (hoverlay.symm.trans hother)
    rw [hsame, hstays] at hdiffers
    cases hdiffers

end Longer

/-! ## Exact arithmetic -/

section ExactTimes

variable {plan : Plan Exact} {added : List (Clip Exact)} {modeKey platformKey : String}
  {config : CompilerConfig Exact} {layout longer : Layout Exact}

/-- Without rounding the video grows by the added footage less one overlap a clip. -/
theorem videoDuration_grows (h : computeAs plan modeKey platformKey config = .ok layout)
    (hlonger : computeAs (plan.appended added) modeKey platformKey config = .ok longer)
    (hadded : added ≠ []) :
    longer.videoDuration = layout.videoDuration
        + Scalar.sum (added.map fun clip => clip.length - layout.transitionDuration) ∧
      layout.videoDuration < longer.videoDuration := by
  obtain ⟨w, hpos, hduration, hoverlap⟩ := exists_overlapUnder modeKey
  obtain ⟨lengths, hlengths, hroom⟩ := exists_lengths hoverlap hlonger
  have hsplit : lengths.map Exact.finite
      = plan.clips.map Clip.length ++ added.map Clip.length := by
    rw [← hlengths]
    exact List.map_append
  obtain ⟨before, qs, rfl, _, hsame⟩ := List.map_eq_append_iff.mp hsplit
  have hqs := hsame.symm
  obtain ⟨v, hv⟩ : ∃ v : ℚ, layout.videoDuration = .finite v := by
    obtain ⟨_, _, run⟩ := exists_run h
    exact ⟨_, run.video_eq⟩
  have hne : qs ≠ [] := by
    rintro rfl
    exact hadded (by simpa using hqs)
  have hvideo : longer.videoDuration = .finite (v + (qs.map (· - w)).sum) := by
    rw [videoDuration_appended h hlonger hadded, hoverlap, hqs, hv, Exact.finite_sub_finite,
      Schedule.endFrom_finite w (v - w) hne, sub_add_cancel]
  have hsum : Scalar.sum (added.map fun clip => clip.length - layout.transitionDuration)
      = .finite (qs.map (· - w)).sum := by
    rw [← Exact.sum_finite, transitionDuration_eq h, hduration]
    have hmap := congrArg (List.map fun length : Exact => length - .finite w) hqs
    rw [List.map_map, List.map_map] at hmap
    rw [List.map_map]
    exact congrArg Scalar.sum
      (hmap.trans (List.map_congr_left fun q _ => Exact.finite_sub_finite q w))
  -- every clip has room for two overlaps, so each adds something
  have hgrows : 0 < (qs.map (· - w)).sum := by
    apply List.sum_pos
    · intro x hx
      obtain ⟨q, hq, rfl⟩ := List.mem_map.mp hx
      linarith [hroom q (List.mem_append_right before hq)]
    · simpa using hne
  rw [hvideo, hv, hsum, Exact.finite_add_finite, Exact.finite_lt_finite]
  exact ⟨rfl, by linarith⟩

end ExactTimes

/-! ## Doubles -/

section DoubleTimes

open Double

variable {plan : Plan Float} {added : List (Clip Float)} {modeKey platformKey : String}
  {config : CompilerConfig Float} {layout longer : Layout Float}

/-- Only a video that has an end is at the beginning of one that has. -/
theorem isFinite_of_appended (h : computeAs plan modeKey platformKey config = .ok layout)
    (hlonger : computeAs (plan.appended added) modeKey platformKey config = .ok longer)
    (hadded : added ≠ []) (hends : Scalar.isFinite longer.videoDuration = true) :
    Scalar.isFinite layout.videoDuration = true := by
  rw [videoDuration_appended h hlonger hadded] at hends
  exact isFinite_of_sub (Schedule.isFinite_of_endFrom hends).1

/-- Sums that round to the nearest double do not make a video shorter, and neither do those
that are too large for one. -/
theorem le_videoDuration_double (h : computeAs plan modeKey platformKey config = .ok layout)
    (hlonger : computeAs (plan.appended added) modeKey platformKey config = .ok longer)
    (hadded : added ≠ []) : layout.videoDuration ≤ longer.videoDuration := by
  obtain ⟨w, hroomy⟩ := exists_roomy (leavesRoom_double modeKey)
  rw [le_iff]
  cases hvideo : exact layout.videoDuration with
  | finite v => exact le_videoDuration hroomy h hlonger hadded hvideo
  | infinite s =>
      obtain ⟨_, _, hlow, _⟩ := exists_video h
      obtain ⟨_, _, hlow', _⟩ := exists_video hlonger
      rw [hvideo, Exact.finite_le_infinite] at hlow
      cases hend : exact longer.videoDuration with
      | finite v =>
          have hends := isFinite_of_appended h hlonger hadded (isFinite_iff.mpr ⟨v, hend⟩)
          obtain ⟨u, hu⟩ := isFinite_iff.mp hends
          cases hvideo.symm.trans hu
      | infinite s' =>
          rw [hend, Exact.finite_le_infinite] at hlow'
          rw [hlow, hlow']
          exact Exact.le_refl (by simp)
      | nan =>
          rw [hend] at hlow'
          exact absurd hlow' (Exact.not_le_nan _)
  | nan =>
      obtain ⟨_, _, hlow, _⟩ := exists_video h
      rw [hvideo] at hlow
      exact absurd hlow (Exact.not_le_nan _)

end DoubleTimes

end Layout

namespace Compiler

/-- **More footage conserves what is there.**  Where a plan compiles, and goes on compiling
with clips at its end, the longer layout begins with the clips of the shorter one, and the
longer payload in frames with its sequences, blends and opening.

In exact arithmetic the video grows by the length of every new clip less one overlap, and
captions that stood where they were asked for stay there.  On doubles the video does not get
shorter, and the captions stay unless the video stops having an end. -/
theorem appending_conserves (modeKey platformKey : String) :
    (∀ (compiler : Compiler Exact) (plan : Plan Exact) (added : List (Clip Exact))
        (layout longer : Layout Exact),
      compiler.layoutAs plan modeKey platformKey = .ok layout →
      compiler.layoutAs (plan.appended added) modeKey platformKey = .ok longer → added ≠ [] →
        layout.Prolonged longer added.length ∧
        (compiler.framesOf layout).Prolonged (compiler.framesOf longer) ∧
        longer.videoDuration = layout.videoDuration
          + Scalar.sum (added.map fun clip => clip.length - layout.transitionDuration) ∧
        layout.videoDuration < longer.videoDuration ∧
        layout.KeepsCaptions longer) ∧
    (∀ (compiler : Compiler Float) (plan : Plan Float) (added : List (Clip Float))
        (layout longer : Layout Float),
      compiler.layoutAs plan modeKey platformKey = .ok layout →
      compiler.layoutAs (plan.appended added) modeKey platformKey = .ok longer → added ≠ [] →
        layout.Prolonged longer added.length ∧
        (compiler.framesOf layout).Prolonged (compiler.framesOf longer) ∧
        layout.videoDuration ≤ longer.videoDuration ∧
        ((Scalar.isFinite layout.videoDuration = true →
            Scalar.isFinite longer.videoDuration = true) →
          layout.KeepsCaptions longer)) := by
  constructor
  · intro compiler plan added layout longer h hlonger hadded
    obtain ⟨w, hroomy⟩ := Layout.exists_roomy (Layout.leavesRoom_exact modeKey)
    obtain ⟨hsum, hless⟩ := Layout.videoDuration_grows h hlonger hadded
    -- in exact arithmetic every video ends, so no condition is left
    have hends : Scalar.isFinite longer.videoDuration = Scalar.isFinite layout.videoDuration := by
      obtain ⟨_, _, run⟩ := Layout.exists_run h
      obtain ⟨_, _, run'⟩ := Layout.exists_run hlonger
      rw [run.video_eq, run'.video_eq, Exact.isFinite_finite, Exact.isFinite_finite]
    exact ⟨Layout.prolonged h hlonger, Layout.framesOf_prolonged h hlonger compiler, hsum, hless,
      Layout.keepsCaptions hroomy h hlonger hadded hends⟩
  · intro compiler plan added layout longer h hlonger hadded
    obtain ⟨w, hroomy⟩ := Layout.exists_roomy (Layout.leavesRoom_double modeKey)
    refine ⟨Layout.prolonged h hlonger, Layout.framesOf_prolonged h hlonger compiler,
      Layout.le_videoDuration_double h hlonger hadded, ?_⟩
    intro hstays
    have hends : Scalar.isFinite longer.videoDuration = Scalar.isFinite layout.videoDuration :=
      Bool.eq_iff_iff.mpr ⟨Layout.isFinite_of_appended h hlonger hadded, hstays⟩
    exact Layout.keepsCaptions hroomy h hlonger hadded hends

end Compiler

/-- A clip of a given length, with a caption near the beginning. -/
def Plan.shore {α : Type} [Scalar α] (length : α) : Plan α where
  mode := "vlog"
  platform := "youtube"
  clips := [.ofLength "sea" length]
  overlays := [.ofSpan "Day one" 5 2]
  music := none

namespace Compiler

/-- Twenty seconds of sky behind twenty seconds of shore: the video becomes longer and its
caption stays, in exact arithmetic and on doubles. -/
theorem appending_conserves_caption_of_longer_video :
    (∃ layout longer, standardExact.layoutAs (.shore 20) "vlog" "youtube" = .ok layout ∧
        standardExact.layoutAs ((Plan.shore 20).appended [.ofLength "sky" 20]) "vlog" "youtube"
          = .ok longer ∧
        layout.videoDuration < longer.videoDuration ∧ layout.KeepsCaptions longer) ∧
      ∃ layout longer, standard.layoutAs (.shore 20) "vlog" "youtube" = .ok layout ∧
        standard.layoutAs ((Plan.shore 20).appended [.ofLength "sky" 20]) "vlog" "youtube"
          = .ok longer ∧
        layout.Prolonged longer 1 ∧ layout.KeepsCaptions longer := by
  obtain ⟨hexact, hdouble⟩ := appending_conserves "vlog" "youtube"
  constructor
  · have hcompiles : (standardExact.layoutAs (.shore 20) "vlog" "youtube").toOption.any
        (fun _ => true) = true := by
      decide +kernel
    have hlonger : (standardExact.layoutAs ((Plan.shore 20).appended [.ofLength "sky" 20]) "vlog"
        "youtube").toOption.any (fun _ => true) = true := by
      decide +kernel
    obtain ⟨layout, hlayout, _⟩ := exists_of_any hcompiles
    obtain ⟨longer, hlonger, _⟩ := exists_of_any hlonger
    obtain ⟨_, _, _, hless, hcaptions⟩ := hexact _ _ _ _ _ hlayout hlonger (by simp)
    exact ⟨layout, longer, hlayout, hlonger, hless, hcaptions⟩
  · have hcompiles : (standard.layoutAs (.shore 20) "vlog" "youtube").toOption.any
        (fun _ => true) = true := by
      decide +kernel
    have hlonger : (standard.layoutAs ((Plan.shore 20).appended [.ofLength "sky" 20]) "vlog"
        "youtube").toOption.any (fun longer => Scalar.isFinite longer.videoDuration) = true := by
      decide +kernel
    obtain ⟨layout, hlayout, _⟩ := exists_of_any hcompiles
    obtain ⟨longer, hlonger, hends⟩ := exists_of_any hlonger
    obtain ⟨hclips, _, _, hcaptions⟩ := hdouble _ _ _ _ _ hlayout hlonger (by simp)
    exact ⟨layout, longer, hlayout, hlonger, hclips, hcaptions fun _ => hends⟩

/-- Two lengths whose sum is no double: with the second clip the video has no end, and the
caption that the first one left where it was is moved to the beginning. -/
theorem more_footage_moves_caption :
    ∃ layout longer, standard.layoutAs (.shore 1e308) "vlog" "youtube" = .ok layout ∧
      standard.layoutAs ((Plan.shore 1e308).appended [.ofLength "sky" 1e308]) "vlog" "youtube"
        = .ok longer ∧
      layout.overlays.map (fun caption => (caption.start, caption.duration)) = [(5, 2)] ∧
      ¬ layout.Adjusts 0 ∧
      longer.overlays.map (fun caption => (caption.start, caption.duration)) = [(0, 0.5)] ∧
      longer.Adjusts 0 := by
  have hcompiles : (standard.layoutAs (.shore 1e308) "vlog" "youtube").toOption.any
      (fun layout => decide (layout.overlays.map
          (fun caption => (caption.start, caption.duration)) = [(5, 2)] ∧
        ¬ layout.Adjusts 0)) = true := by
    decide +kernel
  have hcompiles' : (standard.layoutAs ((Plan.shore 1e308).appended [.ofLength "sky" 1e308]) "vlog"
      "youtube").toOption.any
      (fun longer => decide (longer.overlays.map
          (fun caption => (caption.start, caption.duration)) = [(0, 0.5)] ∧
        longer.Adjusts 0)) = true := by
    decide +kernel
  obtain ⟨layout, hlayout, htest⟩ := exists_of_any hcompiles
  obtain ⟨longer, hlonger, htest'⟩ := exists_of_any hcompiles'
  obtain ⟨hspan, hstays⟩ := of_decide_eq_true htest
  obtain ⟨hspan', hmoves⟩ := of_decide_eq_true htest'
  exact ⟨layout, longer, hlayout, hlonger, hspan, hstays, hspan', hmoves⟩

end Compiler

end Montage
