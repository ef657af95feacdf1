import Montage.Proofs.Compiler
import Montage.Proofs.Numbers.Double

/-!
# What a layout warns about

The warnings of a layout are collected in passing: while two keys are looked up,
while the captions are placed, and when the video turns out to be longer than its
platform allows.  `Layout.warnings_exact` says that nothing is missing among them
and nothing is there without a reason, that they carry the numbers that stand in
the plan and in the layout, and that no clip and no caption is left out on the way.

Whether a caption has moved is a question about the numbers that its times stand
for (`Double.Differs`).  A request that is no number is never met.
-/

namespace Montage

/-- Two doubles do not stand for the same number.  Nothing is the same as NaN. -/
def Double.Differs (x y : Float) : Prop := exact x ≠ exact y ∨ exact y = .nan

theorem Double.bne_iff {x y : Float} : (x != y) = true ↔ Differs x y := by
  rw [bne, Bool.not_eq_true', ← Bool.not_eq_true, beq_iff, Differs, not_and_or, ne_eq, not_not]

namespace Layout

/-- A caption does not stand where it was asked for, or not for as long. -/
def Moved (requested : Overlay Float) (placed : OverlayPlacement Float) : Prop :=
  Double.Differs placed.start requested.start ∨ Double.Differs placed.duration requested.duration

/-- The warning that the caption at an index has moved, with the times that the plan
asks for and those that the layout gives. -/
def AdjustedAt (plan : Plan Float) (layout : Layout Float) (index : ℕ)
    (warning : Warning Float) : Prop :=
  ∃ requested placed, plan.overlays[index]? = some requested ∧
    layout.overlays[index]? = some placed ∧
    warning = .overlayAdjusted index ⟨requested.start, requested.duration⟩
      ⟨placed.start, placed.duration⟩

/-- A clip of a layout shows the footage of a clip of the plan. -/
structure Shows (clip : Clip Float) (placed : ClipPlacement Float) : Prop where
  source : placed.sourceReference = clip.sourceReference
  trim : placed.trimStart = clip.trimStart
  length : placed.length = clip.length

/-- A caption of a layout says what a caption of the plan says. -/
structure Says (overlay : Overlay Float) (placed : OverlayPlacement Float) : Prop where
  text : placed.text = overlay.text
  position : placed.position = overlay.position

/-- The warnings of a layout in their order and with nothing else: a mode key that
names nothing, a platform key that names nothing, each caption that has moved, a video
that is too long.  Every clip and every caption of the plan is in the layout. -/
structure Accounted (plan : Plan Float) (modeKey platformKey : String)
    (layout : Layout Float) : Prop where
  warnings_eq : ∃ (moved : List ℕ) (adjustments : List (Warning Float)),
    layout.warnings =
      (if Mode.lookup? modeKey = none then [.unknownMode modeKey .cinematic] else []) ++
      (if Platform.lookup? platformKey = none then
        [.unknownPlatform platformKey .youtube] else []) ++
      adjustments ++
      (if (Platform.resolve platformKey).profile.maxDuration < layout.videoDuration then
        [.exceedsPlatformDuration layout.videoDuration
          (Platform.resolve platformKey).profile.maxDuration] else []) ∧
    moved.Pairwise (· < ·) ∧
    (∀ k, k ∈ moved ↔ ∃ requested placed, plan.overlays[k]? = some requested ∧
      layout.overlays[k]? = some placed ∧ Moved requested placed) ∧
    List.Forall₂ (AdjustedAt plan layout) moved adjustments
  clips : List.Forall₂ Shows plan.clips layout.clips
  clip_index : layout.clips.map ClipPlacement.index = List.range plan.clips.length
  captions : List.Forall₂ Says plan.overlays layout.overlays
  caption_index : layout.overlays.map OverlayPlacement.index = List.range plan.overlays.length

section Notes

variable {plan : Plan Float} {modeKey platformKey : String} {config : CompilerConfig Float}
  {layout : Layout Float}

/-- A warning about the mode comes with exactly the keys that no mode has. -/
theorem modeWarning?_toList (key : String) :
    (modeWarning? (α := Float) key).toList
      = if Mode.lookup? key = none then [.unknownMode key .cinematic] else [] := by
  rw [modeWarning?, Mode.resolve]
  cases Mode.lookup? key with
  | none => rfl
  | some mode => rfl

/-- A warning about the platform comes with exactly the keys that no platform has. -/
theorem platformWarning?_toList (key : String) :
    (platformWarning? (α := Float) key).toList
      = if Platform.lookup? key = none then [.unknownPlatform key .youtube] else [] := by
  rw [platformWarning?, Platform.resolve]
  cases Platform.lookup? key with
  | none => rfl
  | some platform => rfl

/-- A warning about the length comes with exactly the videos that exceed the platform. -/
theorem durationWarning?_toList (profile : PlatformProfile Float) (video : Float) :
    (durationWarning? profile video).toList
      = if profile.maxDuration < video then
          [.exceedsPlatformDuration video profile.maxDuration] else [] := by
  rw [durationWarning?]
  by_cases h : profile.maxDuration < video
  · rw [if_pos h, if_pos h]
    rfl
  · rw [if_neg h, if_neg h]
    rfl

/-- Whether the clamp moves a caption. -/
def moves (clamp : Clamp Float) (video : Float) (overlay : Overlay Float) : Bool :=
  (clamp.place video (requestedSpan overlay)).differs (requestedSpan overlay)

/-- The captions that the clamp moves, each with its index. -/
def movedOverlays (clamp : Clamp Float) (video : Float) (overlays : List (Overlay Float)) :
    List (Overlay Float × ℕ) :=
  overlays.zipIdx.filter fun entry => moves clamp video entry.1

/-- There is one warning for each caption that moves. -/
theorem overlayWarnings_eq (clamp : Clamp Float) (video : Float)
    (overlays : List (Overlay Float)) :
    overlayWarnings clamp video overlays =
      (movedOverlays clamp video overlays).map fun entry =>
        .overlayAdjusted entry.2 (requestedSpan entry.1)
          (clamp.place video (requestedSpan entry.1)) := by
  rw [overlayWarnings, movedOverlays, ← List.filterMap_eq_filter, List.map_filterMap]
  refine List.filterMap_congr ?_
  rintro ⟨overlay, index⟩ _
  by_cases h : moves clamp video overlay = true
  · have hguard : Option.guard (fun entry : Overlay Float × ℕ => moves clamp video entry.1)
        (overlay, index) = some (overlay, index) := if_pos h
    rw [hguard]
    exact if_pos h
  · have hguard : Option.guard (fun entry : Overlay Float × ℕ => moves clamp video entry.1)
        (overlay, index) = none := if_neg h
    rw [hguard]
    exact if_neg h

/-- Moved captions are listed in the order of their indices. -/
theorem pairwise_movedOverlays (clamp : Clamp Float) (video : Float)
    (overlays : List (Overlay Float)) :
    ((movedOverlays clamp video overlays).map Prod.snd).Pairwise (· < ·) := by
  have hall : (overlays.zipIdx.map Prod.snd).Pairwise (· < ·) := by
    rw [List.zipIdx_map_snd]
    exact List.pairwise_lt_range'
  exact hall.sublist (List.filter_sublist.map Prod.snd)

/-- The list of moved captions holds the captions that are moved, each with its own index. -/
theorem mem_movedOverlays {clamp : Clamp Float} {video : Float} {overlays : List (Overlay Float)}
    {overlay : Overlay Float} {index : ℕ} :
    (overlay, index) ∈ movedOverlays clamp video overlays ↔
      overlays[index]? = some overlay ∧ moves clamp video overlay = true := by
  rw [movedOverlays, List.mem_filter, List.mk_mem_zipIdx_iff_getElem?]

/-- The clamp moves the captions that have moved in the layout. -/
theorem moves_iff (clamp : Clamp Float) (profile : ModeProfile Float) (video : Float)
    (count index : ℕ) (overlay : Overlay Float) :
    moves clamp video overlay = true ↔
      Moved overlay (placeOverlay profile clamp video count index overlay) := by
  rw [moves, Span.differs, Bool.or_eq_true, Double.bne_iff, Double.bne_iff]
  exact Iff.rfl

/-- The clips of a layout are those of the plan, in their order. -/
theorem forall₂_shows (h : computeAs plan modeKey platformKey config = .ok layout) :
    List.Forall₂ Shows plan.clips layout.clips := by
  rw [List.forall₂_iff_get]
  refine ⟨(length_clips h).symm, ?_⟩
  intro k hplan hlayout
  have hk := clips_getElem? h k
  rw [List.getElem?_eq_getElem hlayout, List.getElem?_eq_getElem hplan, Option.bind_some] at hk
  obtain ⟨start, _, hplaced⟩ := Option.map_eq_some_iff.mp hk.symm
  rw [List.get_eq_getElem, List.get_eq_getElem, ← hplaced]
  exact ⟨rfl, rfl, rfl⟩

/-- The captions of a layout are those of the plan, in their order. -/
theorem forall₂_says (h : computeAs plan modeKey platformKey config = .ok layout) :
    List.Forall₂ Says plan.overlays layout.overlays := by
  obtain ⟨_, _, _, rfl⟩ := computeAs_eq_ok_iff.mp h
  rw [List.forall₂_iff_get]
  simp only [assemble, List.length_map, List.length_zipIdx, List.get_eq_getElem,
    List.getElem_map, List.getElem_zipIdx, true_and]
  intro k _ _
  exact ⟨rfl, rfl⟩

/-- **The warnings of a layout.**  Every layout accounts for what was put right in its
plan, and for all that the plan holds. -/
theorem warnings_exact (h : computeAs plan modeKey platformKey config = .ok layout) :
    Accounted plan modeKey platformKey layout := by
  have hplaced := overlays_getElem? h
  have hcaptions := forall₂_says h
  refine ⟨?_, forall₂_shows h, ?_, hcaptions, ?_⟩
  · have hwarnings : layout.warnings = (modeWarning? modeKey).toList
        ++ (platformWarning? platformKey).toList
        ++ overlayWarnings (Clamp.ofConfig config) layout.videoDuration plan.overlays
        ++ (durationWarning? (Platform.resolve platformKey).profile
          layout.videoDuration).toList := by
      obtain ⟨_, _, _, rfl⟩ := computeAs_eq_ok_iff.mp h
      rfl
    let moved := movedOverlays (Clamp.ofConfig config) layout.videoDuration plan.overlays
    refine ⟨moved.map Prod.snd,
      overlayWarnings (Clamp.ofConfig config) layout.videoDuration plan.overlays, ?_,
      pairwise_movedOverlays _ _ _, ?_, ?_⟩
    · rw [hwarnings, modeWarning?_toList, platformWarning?_toList, durationWarning?_toList]
    · intro k
      rw [List.mem_map]
      constructor
      · rintro ⟨⟨overlay, index⟩, hmem, rfl⟩
        obtain ⟨hoverlay, hmoves⟩ := mem_movedOverlays.mp hmem
        exact ⟨overlay, _, hoverlay, by rw [hplaced, hoverlay]; rfl,
          (moves_iff _ _ _ _ _ _).mp hmoves⟩
      · rintro ⟨overlay, placed, hoverlay, hk, hmoved⟩
        rw [hplaced, hoverlay] at hk
        obtain rfl := Option.some.inj hk
        exact ⟨(overlay, k), mem_movedOverlays.mpr ⟨hoverlay, (moves_iff _ _ _ _ _ _).mpr hmoved⟩,
          rfl⟩
    · rw [overlayWarnings_eq, List.forall₂_map_left_iff, List.forall₂_map_right_iff,
        List.forall₂_same]
      rintro ⟨overlay, index⟩ hmem
      obtain ⟨hoverlay, _⟩ := mem_movedOverlays.mp hmem
      exact ⟨overlay, _, hoverlay, by rw [hplaced, hoverlay]; rfl, rfl⟩
  · rw [map_index_clips h, length_clips h]
  · rw [map_index_overlays h, hcaptions.length_eq]

end Notes

/-- A plan that gives cause for every warning: two keys that name nothing, a caption
that begins nowhere, one that stays where it is, one behind the end, and more than an
hour of footage. -/
def restlessPlan : Plan Float where
  mode := "vaporwave"
  platform := "myspace"
  clips := [.ofLength "night" 3600, .ofLength "dawn" 60]
  overlays := [⟨"Day one", 0 / 0, 2, .top⟩, ⟨"Noon", 5, 2, .center⟩, ⟨"The end", 9000, 2, .bottom⟩]
  music := none

/-- The restless plan has a warning of every kind, two of them about captions. -/
theorem warnings_exact_of_five :
    ∃ layout, computeAs restlessPlan "vaporwave" "myspace" .standard = .ok layout ∧
      layout.warnings.length = 5 ∧ Accounted restlessPlan "vaporwave" "myspace" layout := by
  have hcompiles : (computeAs restlessPlan "vaporwave" "myspace" .standard).toOption.any
      (fun layout => layout.warnings.length == 5) = true := by
    decide +kernel
  obtain ⟨layout, hlayout, hcount⟩ := Compiler.exists_of_any hcompiles
  exact ⟨layout, hlayout, beq_iff_eq.mp hcount, warnings_exact hlayout⟩

end Layout

end Montage
