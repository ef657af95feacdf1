import Montage.Proofs.Overflow

/-!
# Payloads without null

A real number that is not finite has no JSON text, and `null` is written in its place.
`Json.Filled` says of a value that this does not happen anywhere inside it, and that
nothing else in it is null.

The payload in frames is filled whatever a video lasts: its times are frame counts.
The payload in seconds is filled exactly when the video and its tail add up to a finite
number (`Layout.tracks_filled_iff`).
-/

namespace Montage

namespace Json

/-- A value without null of which every real number is finite. -/
inductive Filled : Json Float → Prop
  | bool (value : Bool) : Filled (.bool value)
  | int (value : Int) : Filled (.int value)
  | real {x : Float} : Scalar.isFinite x = true → Filled (.real x)
  | str (value : String) : Filled (.str value)
  | arr {items : List (Json Float)} : (∀ item ∈ items, Filled item) → Filled (.arr items)
  | obj {members : List (String × Json Float)} :
      (∀ entry ∈ members, Filled entry.2) → Filled (.obj members)

@[simp] theorem filled_str (s : String) : Filled (.str s) := .str s

@[simp] theorem filled_nat (n : ℕ) : Filled (.nat n) := .int n

@[simp] theorem filled_word {β : Type} [Vocabulary β] (b : β) : Filled (wordJson b) := .str _

@[simp] theorem filled_real_iff {x : Float} : Filled (.real x) ↔ Scalar.isFinite x = true := by
  constructor
  · intro h
    cases h with
    | real h => exact h
  · exact .real

@[simp] theorem filled_arr_iff {items : List (Json Float)} :
    Filled (.arr items) ↔ ∀ item ∈ items, Filled item := by
  constructor
  · intro h
    cases h with
    | arr h => exact h
  · exact .arr

@[simp] theorem filled_obj_iff {members : List (String × Json Float)} :
    Filled (.obj members) ↔ ∀ entry ∈ members, Filled entry.2 := by
  constructor
  · intro h
    cases h with
    | obj h => exact h
  · exact .obj

/-- What is absent cannot be null. -/
@[simp] theorem filled_present_iff {members : List (String × Option (Json Float))} :
    Filled (.present members) ↔ ∀ entry ∈ members, ∀ value ∈ entry.2, Filled value := by
  rw [present, filled_obj_iff]
  constructor
  · intro h entry hentry value hvalue
    refine h (entry.1, value) (List.mem_filterMap.mpr ⟨entry, hentry, ?_⟩)
    exact Option.map_eq_some_iff.mpr ⟨value, hvalue, rfl⟩
  · intro h member hmember
    obtain ⟨entry, hentry, hmap⟩ := List.mem_filterMap.mp hmember
    obtain ⟨value, hvalue, rfl⟩ := Option.map_eq_some_iff.mp hmap
    exact h entry hentry value hvalue

end Json

open Json

/-! ## The payload in seconds -/

/-- The numbers of an asset are finite. -/
def Asset.Finite : Asset Float → Prop
  | .video _ trim volume => Scalar.isFinite trim = true ∧ Scalar.isFinite volume = true
  | .title .. | .page .. => True

theorem Asset.filled_iff (asset : Asset Float) : asset.toJson.Filled ↔ asset.Finite := by
  cases asset <;> simp [Asset.toJson, Asset.Finite]

theorem TransitionPair.filled (pair : TransitionPair) : (pair.toJson (α := Float)).Filled := by
  simp [TransitionPair.toJson]

/-- A clip of a track is written without a null exactly when its asset, its start and its
length are finite. -/
theorem TrackClip.filled_iff (clip : TrackClip Float) :
    clip.toJson.Filled ↔ clip.asset.Finite ∧ Scalar.isFinite clip.start = true ∧
      Scalar.isFinite clip.length = true := by
  simp [TrackClip.toJson, Asset.filled_iff, TransitionPair.filled]

/-- A payload in seconds is written without a null exactly when all its clips and the volume
of its soundtrack are. -/
theorem TrackPayload.filled_iff (payload : TrackPayload Float) :
    payload.toJson.Filled ↔
      (∀ track ∈ payload.tracks, ∀ clip ∈ track.clips, clip.toJson.Filled) ∧
        ∀ soundtrack ∈ payload.soundtrack, Scalar.isFinite soundtrack.volume = true := by
  simp [TrackPayload.toJson, TrackPayload.soundtrackJson, Track.toJson, and_comm]

/-! ## The payload in frames -/

theorem Presentation.filled (presentation : Presentation) :
    (presentation.toJson (α := Float)).Filled := by
  simp [Presentation.toJson]

/-- The scales of every effect are finite constants. -/
theorem Effect.filled_kenBurns (effect : Effect) :
    (effect.kenBurns (α := Float)).toJson.Filled := by
  have hfinite : ∀ x ∈ [(effect.kenBurns (α := Float)).fromScale, effect.kenBurns.toScale,
      effect.kenBurns.fromX, effect.kenBurns.toX, effect.kenBurns.fromY, effect.kenBurns.toY],
      Scalar.isFinite x = true := by
    cases effect <;> decide +kernel
  simpa [KenBurns.toJson] using hfinite

theorem FrameSpan.filled (span : FrameSpan) : (span.toJson (α := Float)).Filled := by
  simp [FrameSpan.toJson]

theorem FrameTransition.filled (transition : FrameTransition) :
    (transition.toJson (α := Float)).Filled := by
  simp [FrameTransition.toJson, Presentation.filled]

theorem FrameEdge.filled (edge : FrameEdge) : (edge.toJson (α := Float)).Filled := by
  simp [FrameEdge.toJson, Presentation.filled]

theorem FrameOverlay.filled (caption : FrameOverlay) : (caption.toJson (α := Float)).Filled := by
  simp [FrameOverlay.toJson]

/-- The only numbers of a payload in frames that are not counts are volumes. -/
theorem FramePayload.filled_ofLayout (clock : Clock) {layout : Layout Float}
    (hclips : ∀ clip ∈ layout.clips, Scalar.isFinite clip.volume = true)
    (hmusic : ∀ soundtrack ∈ layout.soundtrack, Scalar.isFinite soundtrack.volume = true) :
    (ofLayout clock layout).toJson.Filled := by
  have hsequence : ∀ clip ∈ layout.clips, (sequenceOf clock clip).toJson.Filled := by
    intro clip hclip
    simp [FrameSequence.toJson, sequenceOf, hclips clip hclip, Effect.filled_kenBurns]
  have htrack : ∀ soundtrack ∈ layout.soundtrack, (musicOf clock soundtrack).toJson.Filled := by
    intro soundtrack hsoundtrack
    simp [FrameMusic.toJson, musicOf, hmusic soundtrack hsoundtrack]
  simp only [FramePayload.toJson, ofLayout, filled_present_iff, List.forall_mem_cons,
    Option.mem_def, Option.some.injEq, forall_eq', filled_nat, filled_str, filled_arr_iff,
    List.forall_mem_map, Option.map_eq_some_iff, forall_exists_index, and_imp, true_and,
    FrameEdge.filled, FrameOverlay.filled, implies_true, List.not_mem_nil, IsEmpty.forall_iff,
    and_true]
  refine ⟨?_, hsequence, fun _ _ => FrameTransition.filled _, ?_⟩
  · rintro _ _ background _ rfl rfl
    exact FrameSpan.filled _
  · rintro _ _ soundtrack hsoundtrack rfl rfl
    exact htrack soundtrack hsoundtrack

/-! ## What a layout hands on -/

namespace Double

open Float.Model Float.Model.UnpackedFloat

/-- A finite double stands for a number. -/
theorem ne_nan_of_isFinite {x : Float} (h : Scalar.isFinite x = true) : exact x ≠ .nan := by
  obtain ⟨q, hq⟩ := isFinite_iff.mp h
  rw [hq]
  simp

/-- A product of finite numbers is a number, if not always a finite one. -/
theorem mul_ne_nan {x y : Float} (hx : Scalar.isFinite x = true) (hy : Scalar.isFinite y = true) :
    exact (x * y) ≠ .nan := by
  have hkept := kept_unpack x
  have hkept' := kept_unpack y
  change x.toModel.unpack.isFinite = true at hx
  change y.toModel.unpack.isFinite = true at hy
  change value (UnpackedFloat.unpack Format.binary64 (UnpackedFloat.pack Format.binary64
    (UnpackedFloat.mul Format.binary64 x.toModel.unpack y.toModel.unpack))) ≠ .nan
  have hzero : ∀ s, value (UnpackedFloat.unpack Format.binary64
      (UnpackedFloat.pack Format.binary64 (.zero s))) ≠ .nan := by
    intro s
    rw [unpack_pack_zero]
    change Exact.finite 0 ≠ .nan
    simp
  cases hu : x.toModel.unpack with
  | infinity s =>
      rw [hu] at hx
      cases hx
  | notANumber =>
      rw [hu] at hx
      cases hx
  | zero s =>
      -- zero times a finite number is a zero; NaN would need an infinite one
      cases hv : y.toModel.unpack with
      | infinity t =>
          rw [hv] at hy
          cases hy
      | notANumber =>
          rw [hv] at hy
          cases hy
      | zero t => exact hzero (s * t)
      | finite t n f hn => exact hzero (s * t)
  | finite s m e hm =>
      cases hv : y.toModel.unpack with
      | infinity t =>
          rw [hv] at hy
          cases hy
      | notANumber =>
          rw [hv] at hy
          cases hy
      | zero t => exact hzero (s * t)
      | finite t n f hn =>
          rw [hu] at hkept
          rw [hv] at hkept'
          rw [value_pack (mul_finite hkept.1 hkept'.1), magnitude]
          by_cases hfits : toGrid (m * 2 ^ e * (n * 2 ^ f)) < 2 ^ 1024
          · rw [if_pos hfits]
            cases s * t <;> simp [signed]
          · rw [if_neg hfits]
            cases s * t <;> simp [signed]

/-- What has been moved into `[0, 1]` is finite, NaN apart. -/
theorem isFinite_unitInterval {x : Float} (h : exact x ≠ .nan) :
    Scalar.isFinite (Scalar.unitInterval x) = true := by
  have hzero : exact (0 : Float) ≠ .nan := ne_nan_of_isFinite (by decide +kernel)
  have hone : exact (1 : Float) ≠ .nan := ne_nan_of_isFinite (by decide +kernel)
  unfold Scalar.unitInterval
  by_cases hlow : x < 0
  · rw [if_pos hlow]
    decide +kernel
  · rw [if_neg hlow]
    by_cases hhigh : 1 < x
    · rw [if_pos hhigh]
      decide +kernel
    · rw [if_neg hhigh]
      have hfrom : 0 ≤ x :=
        le_iff.mpr (Exact.le_of_not_lt h hzero (fun hlt => hlow (lt_iff.mpr hlt)))
      have hto : x ≤ 1 := le_iff.mpr (Exact.le_of_not_lt hone h (fun hlt => hhigh (lt_iff.mpr hlt)))
      exact isFinite_of_between (by decide +kernel) (by decide +kernel) hfrom hto

end Double

namespace Layout

open Double

variable {plan : Plan Float} {modeKey platformKey : String} {config : CompilerConfig Float}
  {layout : Layout Float}

/-- What a clip hands on besides its beginning has been checked. -/
theorem isFinite_clip (h : computeAs plan modeKey platformKey config = .ok layout) :
    ∀ clip ∈ layout.clips, Scalar.isFinite clip.trimStart = true ∧
      Scalar.isFinite clip.length = true ∧ Scalar.isFinite clip.volume = true := by
  intro placed hplaced
  obtain ⟨k, hk⟩ := List.mem_iff_getElem?.mp hplaced
  rw [clips_getElem? h, Option.bind_eq_some_iff] at hk
  obtain ⟨clip, hclip, hk⟩ := hk
  obtain ⟨start, _, rfl⟩ := Option.map_eq_some_iff.mp hk
  obtain ⟨hconfig, _, haccepted, _⟩ := computeAs_eq_ok_iff.mp h
  obtain ⟨htrim, hlength⟩ := haccepted clip (List.mem_of_getElem? hclip)
  refine ⟨?_, (Schedule.lengthFault?_eq_none_iff.mp hlength).1, ?_⟩
  · change Scalar.isFinite clip.trimStart = true
    by_contra hinfinite
    have hfault : Schedule.trimFault? clip.trimStart = some (.badTrim clip.trimStart) :=
      if_pos (by simp [hinfinite])
    rw [hfault] at htrim
    cases htrim
  · change Scalar.isFinite (clipVolume _ config plan) = true
    unfold clipVolume
    cases plan.hasMusic with
    | true => exact CompilerConfig.isFinite_level hconfig .duckedClipVolume
    | false =>
        change Scalar.isFinite ((Mode.resolve modeKey).profile (α := Float)).clipVolume = true
        cases Mode.resolve modeKey <;> decide +kernel

/-- The soundtrack of a layout has a finite volume when the plan has finite numbers. -/
theorem isFinite_soundtrack (hplan : plan.Finite)
    (h : computeAs plan modeKey platformKey config = .ok layout) :
    ∀ soundtrack ∈ layout.soundtrack, Scalar.isFinite soundtrack.volume = true := by
  obtain ⟨hconfig, _, _, rfl⟩ := computeAs_eq_ok_iff.mp h
  intro soundtrack hsoundtrack
  obtain ⟨music, hmusic, rfl⟩ := Option.map_eq_some_iff.mp hsoundtrack
  refine isFinite_unitInterval ?_
  cases hvolume : music.volume with
  | some volume => exact ne_nan_of_isFinite (hplan.volume music hmusic volume hvolume)
  | none =>
      have hmode : Scalar.isFinite ((Mode.resolve modeKey).profile (α := Float)).musicVolume
          = true := by
        cases Mode.resolve modeKey <;> decide +kernel
      rw [Option.getD_none, musicVolume]
      cases plan.overlays.isEmpty with
      | true => exact ne_nan_of_isFinite hmode
      | false => exact mul_ne_nan hmode (CompilerConfig.isFinite_level hconfig .textMusicDuck)

end Layout

/-- The payload in seconds of a layout with finite volumes is filled exactly when the
video and its tail add up to a finite number. -/
theorem Layout.tracks_filled_iff {plan : Plan Float} {modeKey platformKey : String}
    {config : CompilerConfig Float} {layout : Layout Float} (hplan : plan.Finite)
    (h : computeAs plan modeKey platformKey config = .ok layout) (fps : ℕ) :
    (TrackPayload.ofLayout fps layout).toJson.Filled ↔
      Scalar.isFinite (layout.videoDuration + config.backgroundTail) = true := by
  have hbackground := background_eq_some h
  have htrack : TrackPayload.backgroundTrack? layout = some ⟨.background,
      [TrackPayload.backgroundClip layout.platformProfile ⟨_, 0,
        layout.videoDuration + config.backgroundTail⟩]⟩ :=
    congrArg (Option.map _) hbackground
  rw [TrackPayload.filled_iff]
  constructor
  · rintro ⟨htracks, _⟩
    have hmem : ∀ track, TrackPayload.backgroundTrack? layout = some track →
        track ∈ (TrackPayload.ofLayout fps layout).tracks := by
      intro track hsome
      refine List.mem_append_right _ (List.mem_cons_of_mem _ ?_)
      exact Option.mem_toList.mpr hsome
    have hfilled := htracks _ (hmem _ htrack) _ List.mem_cons_self
    exact ((TrackClip.filled_iff _).mp hfilled).2.2
  · intro htail
    refine ⟨?_, isFinite_soundtrack hplan h⟩
    intro track hmem clip hclip
    rw [TrackClip.filled_iff]
    rcases List.mem_append.mp hmem with htext | hrest
    · -- A caption.
      rw [TrackPayload.textTrack?] at htext
      by_cases hempty : layout.overlays.isEmpty = true
      · rw [if_pos hempty] at htext
        cases htext
      · rw [if_neg hempty, Option.toList_some, List.mem_singleton] at htext
        rw [htext] at hclip
        obtain ⟨caption, hcaption, rfl⟩ := List.mem_map.mp hclip
        exact ⟨trivial, isFinite_caption hplan h caption hcaption⟩
    · rcases List.mem_cons.mp hrest with rfl | hback
      · -- A clip of the video.
        obtain ⟨placed, hplaced, rfl⟩ := List.mem_map.mp hclip
        obtain ⟨htrim, hlength, hvolume⟩ := isFinite_clip h placed hplaced
        have hvideo := (Double.isFinite_of_add htail).1
        exact ⟨⟨htrim, hvolume⟩, isFinite_start h hvideo placed hplaced, hlength⟩
      · rw [htrack, Option.toList_some, List.mem_singleton] at hback
        rw [hback, List.mem_singleton] at hclip
        rw [hclip]
        exact ⟨trivial, Double.isTime_zero.isFinite, htail⟩

/-- How far the times of a layout are finite. -/
structure Bounded (plan : Plan Float) (compiler : Compiler Float) (layout : Layout Float) :
    Prop where
  captions : ∀ caption ∈ layout.overlays,
    Scalar.isFinite caption.start = true ∧ Scalar.isFinite caption.duration = true
  video_le : layout.videoDuration ≤ layout.rawDuration
  finite_iff : layout.FiniteTimes ↔ Scalar.isFinite layout.rawDuration = true ∧
    Scalar.isFinite (layout.videoDuration + compiler.config.backgroundTail) = true
  of_footage : Scalar.isFinite (plan.rawDuration + compiler.config.backgroundTail) = true →
    layout.FiniteTimes
  /-- The clamp takes the video as it is, and not as one that does not end. -/
  relied_iff : Clamp.reliable layout.videoDuration = layout.videoDuration ↔
    Scalar.isFinite layout.videoDuration = true
  seconds_iff : (compiler.payloadJson layout .seconds).Filled ↔
    Scalar.isFinite (layout.videoDuration + compiler.config.backgroundTail) = true
  frames : (compiler.payloadJson layout .frames).Filled

namespace Compiler

/-- **How far times are finite.**  For finite requests the captions of a layout and its
payload in frames are always finite.  All other times are exactly as long as two sums
are: that of the lengths, and that of the video and its tail.  Footage that is finite
with a tail is enough for both. -/
theorem layoutAs_bounded {compiler : Compiler Float} {plan : Plan Float}
    {modeKey platformKey : String} {layout : Layout Float} (hplan : plan.Finite)
    (h : compiler.layoutAs plan modeKey platformKey = .ok layout) :
    Bounded plan compiler layout where
  captions := Layout.isFinite_caption hplan h
  video_le := Layout.videoDuration_le h
  finite_iff := Layout.finiteTimes_iff hplan h
  of_footage := Layout.finiteTimes_of_footage hplan h
  relied_iff := by
    have hpos := Layout.videoDuration_pos h
    unfold Clamp.reliable
    by_cases hvideo : Scalar.isFinite layout.videoDuration = true
    · rw [if_pos hvideo]
      exact iff_of_true (if_pos hpos) hvideo
    · rw [if_neg hvideo]
      refine iff_of_false ?_ hvideo
      intro hzero
      rw [← hzero] at hpos
      exact absurd hpos (by decide +kernel)
  seconds_iff := Layout.tracks_filled_iff hplan h _
  frames := FramePayload.filled_ofLayout _
    (fun clip hclip => (Layout.isFinite_clip h clip hclip).2.2) (Layout.isFinite_soundtrack hplan h)

end Compiler

/-- Two clips of a given length, with a caption near the beginning and music. -/
def Plan.twice (length : Float) : Plan Float where
  mode := "vlog"
  platform := "youtube"
  clips := [.ofLength "sea" length, .ofLength "sky" length]
  overlays := [.ofSpan "Day one" 5 2]
  music := some (.withVolume (.ofReference "song") 0.4)

/-- The plan that shows one clip twice has finite numbers, whatever the length of the
clip. -/
theorem Plan.finite_twice (length : Float) : (Plan.twice length).Finite where
  captions overlay h := by
    obtain rfl : overlay = .ofSpan "Day one" 5 2 := List.mem_singleton.mp h
    decide +kernel
  volume music h volume hvolume := by
    obtain rfl := Option.some.inj h
    obtain rfl := Option.some.inj hvolume
    decide +kernel

/-- Two clips of 20 seconds are compiled to bounded, finite times. -/
theorem Compiler.layoutAs_bounded_in_finite_time :
    ∃ layout, standard.layoutAs (.twice 20) "vlog" "youtube" = .ok layout ∧
      Bounded (.twice 20) standard layout ∧ layout.FiniteTimes := by
  have hcompiles : (standard.layoutAs (.twice 20) "vlog" "youtube").toOption.any
      (fun _ => true) = true := by
    decide +kernel
  obtain ⟨layout, hlayout, _⟩ := exists_of_any hcompiles
  have hbounded := layoutAs_bounded (Plan.finite_twice 20) hlayout
  exact ⟨layout, hlayout, hbounded, hbounded.of_footage (by decide +kernel)⟩

/-- Two lengths that are finite, and whose sum is not: the compiler accepts them, the
video does not end, and the clamp takes it for one that has no time at all. -/
theorem Compiler.twice_overflows :
    (∀ clip ∈ (Plan.twice 1e308).clips,
        Scalar.isFinite clip.trimStart = true ∧ Scalar.isFinite clip.length = true) ∧
      (Plan.twice 1e308).Finite ∧
      ∃ layout, standard.layoutAs (.twice 1e308) "vlog" "youtube" = .ok layout ∧
        Scalar.isFinite layout.videoDuration = false ∧
        Clamp.reliable layout.videoDuration = 0 ∧
        layout.overlays.map (fun caption => (caption.start, caption.duration)) = [(0, 0.5)] ∧
        ¬ layout.FiniteTimes ∧ ¬ (standard.payloadJson layout .seconds).Filled := by
  refine ⟨by decide +kernel, Plan.finite_twice 1e308, ?_⟩
  have hcompiles : (standard.layoutAs (.twice 1e308) "vlog" "youtube").toOption.any
      (fun layout => Scalar.isFinite layout.videoDuration == false &&
        Scalar.isFinite (layout.videoDuration + standard.config.backgroundTail) == false &&
        decide (Clamp.reliable layout.videoDuration = 0) &&
        decide (layout.overlays.map (fun caption => (caption.start, caption.duration))
          = [(0, 0.5)])) = true := by
    decide +kernel
  obtain ⟨layout, hlayout, htest⟩ := exists_of_any hcompiles
  simp only [Bool.and_eq_true, beq_iff_eq, decide_eq_true_eq] at htest
  obtain ⟨⟨⟨hvideo, htail⟩, hrelied⟩, hspans⟩ := htest
  refine ⟨layout, hlayout, hvideo, hrelied, hspans, ?_, ?_⟩
  · intro hfinite
    rw [hfinite.video] at hvideo
    cases hvideo
  · intro hfilled
    have hends := (Layout.tracks_filled_iff (Plan.finite_twice 1e308) hlayout _).mp hfilled
    rw [hends] at htail
    cases htail

end Montage
