import Montage.Layout
import Montage.Plan.Format

/-!
# The payload in seconds

Compositors that work in seconds take tracks, the topmost first: captions above
clips above the background.  Every clip carries its own start and length, and
its transitions as a pair of tags that the compositor blends against whatever
lies underneath.  So the background lasts longer than the last clip.

A compositor refuses an empty track: the track of captions exists only when
there are captions.
-/

namespace Montage

/-- What is shown in a stretch of a track. -/
inductive Asset (α : Type)
  | title (text style color : String) (size : TextSize) (position : Position)
  | video (source : String) (trim volume : α)
  /-- A page of one color. -/
  | page (width height : Nat) (background : String)

/-- A stretch of a track. -/
structure TrackClip (α : Type) where
  asset : Asset α
  start : α
  length : α
  transition : Option TransitionPair
  effect : Option Effect
  filter : Option Filter

/-- What a track holds. -/
inductive TrackRole
  | text
  | video
  | background
  deriving DecidableEq

instance : Vocabulary TrackRole where
  all := [.text, .video, .background]
  word
    | .text => "Text"
    | .video => "Video"
    | .background => "Background"

structure Track (α : Type) where
  role : TrackRole
  clips : List (TrackClip α)

/-- The payload for compositors that work in seconds. -/
structure TrackPayload (α : Type) where
  /-- The color of the canvas behind every track. -/
  canvas : String
  soundtrack : Option (Soundtrack α)
  /-- From top to bottom. -/
  tracks : List (Track α)
  /-- Announced to the compositor; all positions are in seconds. -/
  fps : Nat
  width : Nat
  height : Nat
  aspect : String

namespace TrackPayload

variable {α : Type}

def overlayClip (overlay : OverlayPlacement α) : TrackClip α where
  asset := .title overlay.text overlay.style.style overlay.style.color overlay.style.size
    overlay.position
  start := overlay.start
  length := overlay.duration
  transition := some ⟨overlay.style.fadeIn, overlay.style.fadeOut⟩
  effect := none
  filter := none

def videoClip (clip : ClipPlacement α) : TrackClip α where
  asset := .video clip.sourceReference clip.trimStart clip.volume
  start := clip.start
  length := clip.length
  transition := some clip.transition
  effect := clip.effect
  filter := clip.filter

def backgroundClip (profile : PlatformProfile α) (background : Background α) :
    TrackClip α where
  asset := .page profile.width profile.height background.color
  start := background.start
  length := background.length
  transition := none
  effect := none
  filter := none

/-- The track of captions, if there are captions. -/
def textTrack? (layout : Layout α) : Option (Track α) :=
  if layout.overlays.isEmpty then none else some ⟨.text, layout.overlays.map overlayClip⟩

/-- The track beneath the video, if the layout has a background. -/
def backgroundTrack? (layout : Layout α) : Option (Track α) :=
  layout.background.map fun background =>
    ⟨.background, [backgroundClip layout.platformProfile background]⟩

/-- The payload of a layout. -/
def ofLayout (fps : Nat) (layout : Layout α) : TrackPayload α where
  canvas := layout.modeProfile.backgroundColor
  soundtrack := layout.soundtrack
  tracks := (textTrack? layout).toList ++ ⟨.video, layout.clips.map videoClip⟩
    :: (backgroundTrack? layout).toList
  fps := fps
  width := layout.platformProfile.width
  height := layout.platformProfile.height
  aspect := layout.platformProfile.aspect

/-- The first track with a role. -/
def track? (payload : TrackPayload α) (role : TrackRole) : Option (Track α) :=
  payload.tracks.find? (·.role == role)

/-- The clips of the video, in the order in which they play. -/
def videoClips (payload : TrackPayload α) : List (TrackClip α) :=
  ((payload.track? .video).map Track.clips).getD []

/-- The captions, in order. -/
def textClips (payload : TrackPayload α) : List (TrackClip α) :=
  ((payload.track? .text).map Track.clips).getD []

end TrackPayload

/-! ## The text -/

section Writing

variable {α : Type}

def Asset.toJson : Asset α → Json α
  | .title text style color size position =>
    .obj [
      ("type", .str "title"),
      ("text", .str text),
      ("style", .str style),
      ("color", .str color),
      ("size", wordJson size),
      ("position", wordJson position)]
  | .video source trim volume =>
    .obj [
      ("type", .str "video"),
      ("src", .str source),
      ("trim", .real trim),
      ("volume", .real volume)]
  | .page width height background =>
    .obj [
      ("type", .str "html"),
      ("html", .str ""),
      ("width", .nat width),
      ("height", .nat height),
      ("background", .str background)]

def TrackClip.toJson (clip : TrackClip α) : Json α :=
  .present [
    ("asset", some clip.asset.toJson),
    ("start", some (.real clip.start)),
    ("length", some (.real clip.length)),
    ("transition", clip.transition.map TransitionPair.toJson),
    ("effect", clip.effect.map wordJson),
    ("filter", clip.filter.map wordJson)]

def Track.toJson (track : Track α) : Json α :=
  .obj [("clips", .arr (track.clips.map TrackClip.toJson))]

/-- The music as a compositor takes it. -/
def TrackPayload.soundtrackJson (soundtrack : Soundtrack α) : Json α :=
  .obj [
    ("src", .str soundtrack.sourceReference),
    ("effect", wordJson soundtrack.effect),
    ("volume", .real soundtrack.volume)]

def TrackPayload.toJson (payload : TrackPayload α) : Json α :=
  .obj [
    ("timeline", .present [
      ("background", some (.str payload.canvas)),
      ("soundtrack", payload.soundtrack.map soundtrackJson),
      ("tracks", some (.arr (payload.tracks.map Track.toJson)))]),
    ("output", .obj [
      ("format", .str "mp4"),
      ("fps", .nat payload.fps),
      ("size", .obj [("width", .nat payload.width), ("height", .nat payload.height)]),
      ("aspectRatio", .str payload.aspect)])]

end Writing

end Montage
