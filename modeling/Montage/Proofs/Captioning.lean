import Montage.Proofs.Payload.Tracks
import Montage.Proofs.Tuning

/-!
# What captions can change

Captions lie on top of a video.  A plan with other captions is cut the same way: its
clips stand where they stood, the background lies beneath them, and the video ends when
it ended.  Two things reach further than the captions themselves.  Music that does not
say how loud it is steps back for captions, so its volume tells whether there are any,
and the warnings name the captions that had to move.

`Layout.Recaptioned` says this of two layouts, `TrackPayload.Recaptioned` and
`FramePayload.Recaptioned` of their payloads.  Captions do not see each other either:
`Layout.Captioned` gives the span of each from what it asks for itself, and its look from
where it stands on the picture and in the list.  So captions in another order have their
spans in that order.

`Compiler.captions_disturb_nothing` is the statement about the compiler.
-/

namespace Montage

section Recaptioned

variable {α : Type}

/-- The plan with other captions. -/
def Plan.captioned (plan : Plan α) (overlays : List (Overlay α)) : Plan α :=
  { plan with overlays }

/-- When a caption is shown. -/
def OverlayPlacement.span (placed : OverlayPlacement α) : Span α :=
  ⟨placed.start, placed.duration⟩

/-- The same music, perhaps at another volume. -/
def Soundtrack.SameButVolume (soundtrack soundtrack' : Soundtrack α) : Prop :=
  soundtrack' = { soundtrack with volume := soundtrack'.volume }

/-- The same music in frames, perhaps at another volume. -/
def FrameMusic.SameButVolume (music music' : FrameMusic α) : Prop :=
  music' = { music with volume := music'.volume }

/-- The music of a plan under its own captions and under others. -/
structure MusicKept {β : Type} (plan : Plan α) (overlays : List (Overlay α))
    (sameButVolume : β → β → Prop) (music music' : Option β) : Prop where
  same : Option.Rel sameButVolume music music'
  /-- It is as loud as it was, unless it does not say how loud it is and one of the two
  lists has no captions at all. -/
  of_ne : music' ≠ music → (∃ music, plan.music = some music ∧ music.volume = none) ∧
    ¬ (plan.overlays = [] ↔ overlays = [])

/-- Two layouts of one plan, under its own captions and under others. -/
structure Layout.Recaptioned (plan : Plan α) (overlays : List (Overlay α))
    (layout other : Layout α) : Prop where
  /-- Mode, platform, durations, clips, background and the rows of the tables are the
  same. -/
  same : other = { layout with
    overlays := other.overlays
    soundtrack := other.soundtrack
    warnings := other.warnings }
  music : MusicKept plan overlays Soundtrack.SameButVolume layout.soundtrack other.soundtrack
  /-- Warnings agree on all but captions that had to move. -/
  warnings : ∃ before after moved moved',
    layout.warnings = before ++ moved ++ after ∧ other.warnings = before ++ moved' ++ after ∧
      ∀ warning ∈ moved ++ moved', warning.IsAdjustment
  /-- Captions that ask for the same span get the same span, wherever they are listed. -/
  spans : ∀ j k : ℕ,
    overlays[k]?.map Layout.requestedSpan = plan.overlays[j]?.map Layout.requestedSpan →
      other.overlays[k]?.map OverlayPlacement.span = layout.overlays[j]?.map OverlayPlacement.span
  /-- Spans that are asked for in another order are given in another order. -/
  permuted : (overlays.map Layout.requestedSpan).Perm (plan.overlays.map Layout.requestedSpan) →
    (other.overlays.map OverlayPlacement.span).Perm (layout.overlays.map OverlayPlacement.span)
  styles : ∀ caption ∈ layout.overlays, ∀ caption' ∈ other.overlays,
    caption'.position = caption.position → caption'.isFirst = caption.isFirst →
      caption'.isLast = caption.isLast → caption'.style = caption.style

/-- The payloads in seconds of one plan, under its own captions and under others. -/
structure TrackPayload.Recaptioned (plan : Plan α) (overlays : List (Overlay α))
    (payload other : TrackPayload α) : Prop where
  same : other = { payload with soundtrack := other.soundtrack, tracks := other.tracks }
  /-- Every track but that of the captions is the same, and the order of the others too. -/
  beneath : other.tracks.filter (·.role != .text) = payload.tracks.filter (·.role != .text)
  videoClips : other.videoClips = payload.videoClips
  music : MusicKept plan overlays Soundtrack.SameButVolume payload.soundtrack other.soundtrack

/-- The payloads in frames of one plan, under its own captions and under others. -/
structure FramePayload.Recaptioned (plan : Plan α) (overlays : List (Overlay α))
    (payload other : FramePayload α) : Prop where
  /-- Sequences, transitions, both edges, background and duration are the same. -/
  same : other = { payload with overlays := other.overlays, music := other.music }
  music : MusicKept plan overlays FrameMusic.SameButVolume payload.music other.music

/-- What is made of the music in the same way on both sides is kept as the music is. -/
theorem MusicKept.map {β γ : Type} {plan : Plan α} {overlays : List (Overlay α)}
    {related : β → β → Prop} {related' : γ → γ → Prop} {music music' : Option β} {f : β → γ}
    (h : MusicKept plan overlays related music music')
    (hf : ∀ x y, related x y → related' (f x) (f y)) :
    MusicKept plan overlays related' (music.map f) (music'.map f) where
  same := by
    cases h.same with
    | none => exact .none
    | some hrelated => exact .some (hf _ _ hrelated)
  of_ne := by
    intro hne
    apply h.of_ne
    rintro rfl
    exact hne rfl

end Recaptioned

namespace Layout

variable {α : Type} [Scalar α]

/-- Each caption of a layout is shown when its own request says, as far as the video and the
two margins allow, and looks as its place on the picture and in the list says. -/
structure Captioned (plan : Plan α) (config : CompilerConfig α) (layout : Layout α) : Prop where
  spans : layout.overlays.map OverlayPlacement.span = plan.overlays.map fun overlay =>
    (Clamp.ofMargins config.overlayLookback config.minOverlay).place layout.videoDuration
      (requestedSpan overlay)
  styles : ∀ (k : ℕ) (caption : OverlayPlacement α), layout.overlays[k]? = some caption →
    plan.overlays[k]?.map Overlay.position = some caption.position ∧
      caption.isFirst = (k == 0) ∧ caption.isLast = (k + 1 == plan.overlays.length) ∧
      caption.style
        = overlayStyle layout.modeProfile caption.position caption.isFirst caption.isLast

section Captions

variable (plan : Plan α) (overlays : List (Overlay α)) (modeKey platformKey : String)
  (config : CompilerConfig α) (schedule : Schedule α)

/-- In a layout every caption has the span and the style that its request and its place ask
for. -/
theorem captioned_assemble :
    (assemble plan modeKey platformKey config schedule).Captioned plan config where
  spans := by
    apply List.ext_getElem?
    intro k
    simp only [overlays_assemble, List.getElem?_map, List.getElem?_zipIdx, Option.map_map]
    rfl
  styles := by
    intro k caption hcaption
    simp only [overlays_assemble, List.getElem?_map, List.getElem?_zipIdx, Option.map_map,
      Nat.zero_add] at hcaption
    obtain ⟨overlay, hoverlay, rfl⟩ := Option.map_eq_some_iff.mp hcaption
    rw [hoverlay]
    exact ⟨rfl, rfl, rfl, rfl⟩

/-- The music hears of captions only whether there are any. -/
theorem musicVolume_captioned (profile : ModeProfile α)
    (h : plan.overlays = [] ↔ overlays = []) :
    musicVolume profile config (plan.captioned overlays) = musicVolume profile config plan := by
  simp only [musicVolume, Plan.captioned, List.isEmpty_iff, h]

/-- Captions have a part in the volume of the music only, and only by being there. -/
theorem musicKept_soundtrackOf (profile : ModeProfile α) :
    MusicKept plan overlays Soundtrack.SameButVolume (soundtrackOf profile config plan)
      (soundtrackOf profile config (plan.captioned overlays)) where
  same := by
    unfold soundtrackOf Plan.captioned
    cases plan.music with
    | none => exact .none
    | some music => exact .some rfl
  of_ne := by
    -- music that says how loud it is, or hears of captions in both plans, stays as it is
    intro hne
    by_contra hsame
    apply hne
    unfold soundtrackOf
    apply Option.map_congr
    intro music hmusic
    cases hvolume : music.volume with
    | some volume => rfl
    | none =>
        have hempty : plan.overlays = [] ↔ overlays = [] := by
          by_contra hempty
          exact hsame ⟨⟨music, hmusic, hvolume⟩, hempty⟩
        rw [musicVolume_captioned plan overlays config profile hempty]

end Captions

/-! ## Two layouts -/

section Two

variable {plan : Plan α} {overlays : List (Overlay α)} {modeKey platformKey : String}
  {config : CompilerConfig α} {layout other : Layout α}

/-- The span of a caption is a function of its request. -/
theorem Captioned.span_eq (h : layout.Captioned plan config) (k : ℕ) :
    layout.overlays[k]?.map OverlayPlacement.span =
      (plan.overlays[k]?.map requestedSpan).map
        ((Clamp.ofMargins config.overlayLookback config.minOverlay).place
          layout.videoDuration) := by
  rw [← List.getElem?_map, h.spans, List.getElem?_map, Option.map_map]
  rfl

/-- The spans of two layouts that last equally long are found in the same way. -/
theorem Captioned.permuted (h : layout.Captioned plan config)
    (h' : other.Captioned (plan.captioned overlays) config)
    (hvideo : other.videoDuration = layout.videoDuration)
    (hrequests : (overlays.map requestedSpan).Perm (plan.overlays.map requestedSpan)) :
    (other.overlays.map OverlayPlacement.span).Perm
      (layout.overlays.map OverlayPlacement.span) := by
  have hplaced := hrequests.map
    ((Clamp.ofMargins config.overlayLookback config.minOverlay).place layout.videoDuration)
  rw [List.map_map, List.map_map] at hplaced
  rw [h.spans, h'.spans, hvideo]
  exact hplaced

/-- Two captions of one mode that stand alike look alike. -/
theorem Captioned.style_eq (h : layout.Captioned plan config)
    (h' : other.Captioned (plan.captioned overlays) config)
    (hprofile : other.modeProfile = layout.modeProfile)
    {caption caption' : OverlayPlacement α} (hcaption : caption ∈ layout.overlays)
    (hcaption' : caption' ∈ other.overlays) (hposition : caption'.position = caption.position)
    (hfirst : caption'.isFirst = caption.isFirst) (hlast : caption'.isLast = caption.isLast) :
    caption'.style = caption.style := by
  obtain ⟨j, hj⟩ := List.mem_iff_getElem?.mp hcaption
  obtain ⟨k, hk⟩ := List.mem_iff_getElem?.mp hcaption'
  obtain ⟨_, _, _, hstyle⟩ := h.styles j caption hj
  obtain ⟨_, _, _, hstyle'⟩ := h'.styles k caption' hk
  rw [hstyle, hstyle', hprofile, hposition, hfirst, hlast]

/-- Two layouts of one schedule differ in captions and in what captions have a part in. -/
theorem recaptioned_assemble (plan : Plan α) (overlays : List (Overlay α))
    (modeKey platformKey : String) (config : CompilerConfig α) (schedule : Schedule α) :
    Recaptioned plan overlays (assemble plan modeKey platformKey config schedule)
      (assemble (plan.captioned overlays) modeKey platformKey config schedule) := by
  have hown := captioned_assemble plan modeKey platformKey config schedule
  have hother := captioned_assemble (plan.captioned overlays) modeKey platformKey config schedule
  constructor
  case same =>
    have hvolume : ∀ profile : ModeProfile α, clipVolume profile config (plan.captioned overlays)
        = clipVolume profile config plan := fun _ => rfl
    dsimp only [assemble]
    rw [hvolume]
    dsimp only [Plan.captioned]
  case music =>
    rw [soundtrack_assemble, soundtrack_assemble]
    exact musicKept_soundtrackOf plan overlays config _
  case warnings =>
    -- what stands before and behind the adjustments does not mention captions
    refine ⟨_, _, _, _, warnings_assemble .., warnings_assemble .., ?_⟩
    intro warning hwarning
    rcases List.mem_append.mp hwarning with h | h
    · exact isAdjustment_of_mem h
    · exact isAdjustment_of_mem h
  case spans =>
    intro j k hrequest
    rw [hown.span_eq, hother.span_eq]
    exact congrArg _ hrequest
  case permuted => exact hown.permuted hother rfl
  case styles =>
    intro caption hcaption caption' hcaption'
    exact hown.style_eq hother rfl hcaption hcaption'

/-- Captions have no say in whether there is a layout. -/
theorem computeAs_captioned (plan : Plan α) (overlays : List (Overlay α))
    (modeKey platformKey : String) (config : CompilerConfig α) :
    Alike (Recaptioned plan overlays) (computeAs plan modeKey platformKey config)
      (computeAs (plan.captioned overlays) modeKey platformKey config) := by
  -- a plan is refused for its clips only
  have hschedule : schedule (plan.captioned overlays) (Mode.resolve modeKey) config
      = schedule plan (Mode.resolve modeKey) config := rfl
  unfold computeAs
  rw [hschedule]
  cases schedule plan (Mode.resolve modeKey) config with
  | error fault => exact .fail fault
  | ok schedule =>
      exact .succeed (recaptioned_assemble plan overlays modeKey platformKey config schedule)

/-- So it is in every layout that a plan has. -/
theorem captioned (h : computeAs plan modeKey platformKey config = .ok layout) :
    layout.Captioned plan config := by
  obtain ⟨_, _, _, rfl⟩ := computeAs_eq_ok_iff.mp h
  exact captioned_assemble plan modeKey platformKey config _

/-! ## Two payloads -/

/-- The captions have a track of their own, on top of the others. -/
theorem tracks_beneath (compiler : Compiler α) (layout : Layout α) :
    (compiler.tracksOf layout).tracks.filter (·.role != .text) =
      TrackPayload.videoTrack layout :: (TrackPayload.backgroundTrack? layout).toList := by
  have htext : (TrackPayload.textTrack? layout).toList.filter (·.role != .text) = [] := by
    unfold TrackPayload.textTrack?
    cases layout.overlays with
    | nil => rfl
    | cons overlay rest => rfl
  have hrest : (TrackPayload.videoTrack layout
      :: (TrackPayload.backgroundTrack? layout).toList).filter (·.role != .text)
        = TrackPayload.videoTrack layout :: (TrackPayload.backgroundTrack? layout).toList := by
    unfold TrackPayload.backgroundTrack?
    cases layout.background with
    | none => rfl
    | some background => rfl
  calc (compiler.tracksOf layout).tracks.filter (·.role != .text)
      = (TrackPayload.textTrack? layout).toList.filter (·.role != .text)
          ++ (TrackPayload.videoTrack layout
            :: (TrackPayload.backgroundTrack? layout).toList).filter (·.role != .text) :=
        List.filter_append ..
    _ = _ := by rw [htext, hrest, List.nil_append]

/-- Payloads in seconds differ as their layouts do. -/
theorem Recaptioned.tracksOf (h : Recaptioned plan overlays layout other)
    (compiler : Compiler α) :
    TrackPayload.Recaptioned plan overlays (compiler.tracksOf layout)
      (compiler.tracksOf other) := by
  have hsame := h.same
  constructor
  case same =>
    rw [hsame]
    rfl
  case beneath =>
    rw [tracks_beneath, tracks_beneath, hsame]
    rfl
  case videoClips =>
    rw [Compiler.tracksOf, Compiler.tracksOf, TrackPayload.videoClips_ofLayout,
      TrackPayload.videoClips_ofLayout, hsame]
  case music => exact h.music

/-- Payloads in frames differ as their layouts do. -/
theorem Recaptioned.framesOf (h : Recaptioned plan overlays layout other)
    (compiler : Compiler α) :
    FramePayload.Recaptioned plan overlays (compiler.framesOf layout)
      (compiler.framesOf other) := by
  constructor
  case same =>
    rw [h.same]
    rfl
  case music =>
    apply h.music.map
    intro soundtrack soundtrack' hsoundtrack
    rw [hsoundtrack]
    rfl

end Two

end Layout

namespace Compiler

variable {α : Type} [Scalar α]

/-- **Captions disturb nothing but themselves.**  Under the same keys and settings a plan
fails with the same fault whatever its captions, or has layouts and payloads that agree but
for the captions, the warnings about them, and the volume of music that does not say how
loud it is, where one of the two lists is empty.  Each caption of a layout has the span that
its own request gets in a video of that length with those margins, and looks as it does for
where it stands. -/
theorem captions_disturb_nothing (plan : Plan α) (overlays : List (Overlay α))
    (modeKey platformKey : String) (config : CompilerConfig α) :
    Alike (Layout.Recaptioned plan overlays)
      (Layout.computeAs plan modeKey platformKey config)
      (Layout.computeAs (plan.captioned overlays) modeKey platformKey config) ∧
    (∀ layout, Layout.computeAs plan modeKey platformKey config = .ok layout →
      layout.Captioned plan config) ∧
    ∀ compiler : Compiler α, compiler.config = config →
      Alike (TrackPayload.Recaptioned plan overlays)
        (compiler.tracksAs plan modeKey platformKey)
        (compiler.tracksAs (plan.captioned overlays) modeKey platformKey) ∧
      Alike (FramePayload.Recaptioned plan overlays)
        (compiler.framesAs plan modeKey platformKey)
        (compiler.framesAs (plan.captioned overlays) modeKey platformKey) := by
  have hlayouts := Layout.computeAs_captioned plan overlays modeKey platformKey
  refine ⟨hlayouts config, fun layout h => Layout.captioned h, ?_⟩
  intro compiler _
  have hlayoutAs : Alike (Layout.Recaptioned plan overlays)
      (compiler.layoutAs plan modeKey platformKey)
      (compiler.layoutAs (plan.captioned overlays) modeKey platformKey) :=
    hlayouts compiler.config
  rw [tracksAs_eq_map, tracksAs_eq_map, framesAs_eq_map, framesAs_eq_map]
  exact ⟨hlayoutAs.map_related fun _ _ h => h.tracksOf compiler,
    hlayoutAs.map_related fun _ _ h => h.framesOf compiler⟩

/-- The sample without its captions. -/
theorem captions_disturb_nothing_when_removed :
    ∃ layout, standard.layoutAs (.sample Float) "vlog" "tiktok" = .ok layout ∧
      layout.Captioned (.sample Float) .standard ∧
      (∃ other, standard.layoutAs ((Plan.sample Float).captioned []) "vlog" "tiktok" = .ok other ∧
        layout.Recaptioned (.sample Float) [] other) ∧
      ∃ payload, standard.framesAs ((Plan.sample Float).captioned []) "vlog" "tiktok"
          = .ok payload ∧
        (standard.framesOf layout).Recaptioned (.sample Float) [] payload := by
  have hcompiles : (standard.layoutAs (.sample Float) "vlog" "tiktok").toOption.any
      (fun _ => true) = true := by
    decide +kernel
  obtain ⟨layout, hlayout, _⟩ := exists_of_any hcompiles
  obtain ⟨hlayouts, hcaptioned, hpayloads⟩ :=
    captions_disturb_nothing (.sample Float) [] "vlog" "tiktok" .standard
  obtain ⟨_, hframes⟩ := hpayloads standard rfl
  rw [framesAs_eq_map, hlayout] at hframes
  have hcomputed : Layout.computeAs (.sample Float) "vlog" "tiktok" .standard = .ok layout :=
    hlayout
  rw [hcomputed] at hlayouts
  exact ⟨layout, hlayout, hcaptioned layout hcomputed, hlayouts.exists_of_ok,
    hframes.exists_of_ok⟩

end Compiler

end Montage
