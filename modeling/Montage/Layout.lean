import Montage.Clamp
import Montage.Schedule
import Montage.Styling

/-!
# The layout of a video

A layout is a plan in which everything is decided: when each clip plays and
what it looks like, where each caption stands, how loud everything is.  It is
computed once, and the payloads for renderers only reshape it, so they cannot
disagree.

`Layout.computeAs` fails for settings that make no sense and for footage that
cannot be scheduled, and for no other reason.  Keys that name nothing, captions
that had to move and videos that are too long for their platform are warnings;
they stand in the layout in the order in which they are found.
-/

namespace Montage

/-- Something that was put right, or that deserves a look. -/
inductive Warning (α : Type)
  | unknownMode (requested : String) (fallback : Mode)
  | unknownPlatform (requested : String) (fallback : Platform)
  | exceedsPlatformDuration (videoDuration maxDuration : α)
  | overlayAdjusted (index : Nat) (requested placed : Span α)

/-- A clip in its place. -/
structure ClipPlacement (α : Type) where
  /-- Its index in the plan. -/
  index : Nat
  sourceReference : String
  trimStart : α
  start : α
  length : α
  transition : TransitionPair
  effect : Option Effect
  filter : Option Filter
  volume : α

/-- A caption in its place. -/
structure OverlayPlacement (α : Type) where
  /-- Its index in the plan. -/
  index : Nat
  text : String
  start : α
  duration : α
  position : Position
  isFirst : Bool
  isLast : Bool
  style : OverlayStyle

/-- The color beneath the video. -/
structure Background (α : Type) where
  color : String
  start : α
  length : α

/-- The music under the whole video. -/
structure Soundtrack (α : Type) where
  sourceReference : String
  effect : SoundtrackEffect
  volume : α

/-- A plan in which everything is decided. -/
structure Layout (α : Type) where
  mode : Mode
  platform : Platform
  modeProfile : ModeProfile α
  platformProfile : PlatformProfile α
  /-- Seconds that adjacent clips share. -/
  transitionDuration : α
  /-- Seconds that the video lasts. -/
  videoDuration : α
  /-- Seconds of footage. -/
  rawDuration : α
  clips : List (ClipPlacement α)
  overlays : List (OverlayPlacement α)
  background : Option (Background α)
  soundtrack : Option (Soundtrack α)
  warnings : List (Warning α)

/-- Why a plan has no layout. -/
inductive LayoutFault (α : Type)
  | config (fault : ConfigFault α)
  | plan (fault : PlanFault α)

namespace Layout

variable {α : Type} [Scalar α]

/-- Why a plan in a mode has no layout: its settings are looked at before its
footage. -/
def schedule (plan : Plan α) (mode : Mode) (config : CompilerConfig α) :
    Except (LayoutFault α) (Schedule α) :=
  match config.fault? with
  | some fault => .error (.config fault)
  | none =>
    match Schedule.estimateClips (mode.profile (α := α)).transitionDuration plan.clips with
    | .error fault => .error (.plan fault)
    | .ok schedule => .ok schedule

/-- The clip at an index that begins at `start`. -/
def placeClip (profile : ModeProfile α) (volume : α) (index : Nat) (clip : Clip α) (start : α) :
    ClipPlacement α :=
  let style := styleClip profile index clip
  { index
    sourceReference := clip.sourceReference
    trimStart := clip.trimStart
    start
    length := clip.length
    transition := style.transition
    effect := style.effect
    filter := style.filter
    volume }

/-- The clips with their beginnings; the first has index `index`. -/
def placeClips (profile : ModeProfile α) (volume : α) (index : Nat) :
    List (Clip α) → List α → List (ClipPlacement α)
  | clip :: clips, start :: starts =>
    placeClip profile volume index clip start
      :: placeClips profile volume (index + 1) clips starts
  | _, _ => []

/-- The span that a caption asks for. -/
def requestedSpan (overlay : Overlay α) : Span α := ⟨overlay.start, overlay.duration⟩

/-- The caption at an index of `count` captions. -/
def placeOverlay (profile : ModeProfile α) (clamp : Clamp α) (video : α) (count index : Nat)
    (overlay : Overlay α) : OverlayPlacement α :=
  let span := clamp.place video (requestedSpan overlay)
  let isFirst := index == 0
  let isLast := index + 1 == count
  { index
    text := overlay.text
    start := span.start
    duration := span.duration
    position := overlay.position
    isFirst
    isLast
    style := overlayStyle profile overlay.position isFirst isLast }

/-- The warning about a caption that had to move. -/
def overlayWarning? (clamp : Clamp α) (video : α) (index : Nat) (overlay : Overlay α) :
    Option (Warning α) :=
  let requested := requestedSpan overlay
  let placed := clamp.place video requested
  if placed.differs requested then some (.overlayAdjusted index requested placed) else none

/-- The warnings about captions, in order. -/
def overlayWarnings (clamp : Clamp α) (video : α) (overlays : List (Overlay α)) :
    List (Warning α) :=
  overlays.zipIdx.filterMap fun (overlay, index) => overlayWarning? clamp video index overlay

/-- The warning about a mode key that names nothing. -/
def modeWarning? (key : String) : Option (Warning α) :=
  match Mode.lookup? key with
  | some _ => none
  | none => some (.unknownMode key (Mode.resolve key))

/-- The warning about a platform key that names nothing. -/
def platformWarning? (key : String) : Option (Warning α) :=
  match Platform.lookup? key with
  | some _ => none
  | none => some (.unknownPlatform key (Platform.resolve key))

/-- The warning about a video that is too long for its platform. -/
def durationWarning? (profile : PlatformProfile α) (video : α) : Option (Warning α) :=
  if profile.maxDuration < video then
    some (.exceedsPlatformDuration video profile.maxDuration)
  else none

/-- How loud the clips are: music pushes them back. -/
def clipVolume (profile : ModeProfile α) (config : CompilerConfig α) (plan : Plan α) : α :=
  if plan.hasMusic then config.duckedClipVolume else profile.clipVolume

/-- The color beneath a video that lasts at all. -/
def backgroundOf (profile : ModeProfile α) (config : CompilerConfig α) (video : α) :
    Option (Background α) :=
  if 0 < video then some ⟨profile.backgroundColor, 0, video + config.backgroundTail⟩ else none

/-- How loud music is that does not say so: captions push it back. -/
def musicVolume (profile : ModeProfile α) (config : CompilerConfig α) (plan : Plan α) : α :=
  if plan.overlays.isEmpty then profile.musicVolume
  else profile.musicVolume * config.textMusicDuck

/-- The music of a plan. -/
def soundtrackOf (profile : ModeProfile α) (config : CompilerConfig α) (plan : Plan α) :
    Option (Soundtrack α) :=
  plan.music.map fun music =>
    { sourceReference := music.sourceReference
      effect := profile.musicEffect
      volume := Scalar.unitInterval (music.volume.getD (musicVolume profile config plan)) }

/-- The layout of a plan whose clips are scheduled. -/
def assemble (plan : Plan α) (modeKey platformKey : String) (config : CompilerConfig α)
    (schedule : Schedule α) : Layout α :=
  let mode := Mode.resolve modeKey
  let platform := Platform.resolve platformKey
  let profile := mode.profile
  let clamp := Clamp.ofConfig config
  let video := schedule.videoDuration
  { mode
    platform
    modeProfile := profile
    platformProfile := platform.profile
    transitionDuration := profile.transitionDuration
    videoDuration := video
    rawDuration := schedule.rawDuration
    clips := placeClips profile (clipVolume profile config plan) 0 plan.clips schedule.starts
    overlays := plan.overlays.zipIdx.map fun (overlay, index) =>
      placeOverlay profile clamp video plan.overlays.length index overlay
    background := backgroundOf profile config video
    soundtrack := soundtrackOf profile config plan
    warnings := (modeWarning? modeKey).toList ++ (platformWarning? platformKey).toList
      ++ overlayWarnings clamp video plan.overlays
      ++ (durationWarning? platform.profile video).toList }

/-- The layout of a plan in the mode and on the platform of two keys. -/
def computeAs (plan : Plan α) (modeKey platformKey : String) (config : CompilerConfig α) :
    Except (LayoutFault α) (Layout α) :=
  match schedule plan (Mode.resolve modeKey) config with
  | .error fault => .error fault
  | .ok schedule => .ok (assemble plan modeKey platformKey config schedule)

/-- The layout of a plan in its own mode and on its own platform. -/
def compute (plan : Plan α) (config : CompilerConfig α) :
    Except (LayoutFault α) (Layout α) :=
  computeAs plan plan.mode plan.platform config

/-- Counts and durations for display. -/
structure Summary (α : Type) where
  clipCount : Nat
  overlayCount : Nat
  rawDuration : α
  videoDuration : α
  /-- Seconds that the overlaps take away. -/
  overlap : α
  hasSoundtrack : Bool

/-- The counts and durations of a layout. -/
def summary (layout : Layout α) : Summary α where
  clipCount := layout.clips.length
  overlayCount := layout.overlays.length
  rawDuration := layout.rawDuration
  videoDuration := layout.videoDuration
  overlap := layout.rawDuration - layout.videoDuration
  hasSoundtrack := layout.soundtrack.isSome

/-- The transitions between adjacent clips: behind which clip, and how the next
one enters. -/
def joinsOf : List (ClipPlacement α) → List (Nat × Transition)
  | first :: second :: rest =>
    (first.index, second.transition.entry) :: joinsOf (second :: rest)
  | _ => []

/-- The transitions between adjacent clips of a layout. -/
def joins (layout : Layout α) : List (Nat × Transition) := joinsOf layout.clips

end Layout

end Montage
