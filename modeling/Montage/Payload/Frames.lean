import Montage.Clock
import Montage.Layout
import Montage.Plan.Format

/-!
# The payload in frames

Renderers that draw frame by frame take positions as frame counts at a fixed
rate.  Effects are given as the zoom and the shift at both ends of a clip, and
transitions stand between two clips instead of at the edges of each; the first
clip enters and the last one leaves against the background.
-/

namespace Montage

/-- How one picture gives way to another. -/
inductive PresentationKind
  | fade
  | slide
  | wipe
  | iris
  deriving DecidableEq

instance : Vocabulary PresentationKind where
  all := [.fade, .slide, .wipe, .iris]
  word
    | .fade => "fade"
    | .slide => "slide"
    | .wipe => "wipe"
    | .iris => "iris"

/-- The side from which the new picture comes. -/
inductive Direction
  | fromLeft
  | fromRight
  | fromTop
  | fromBottom
  deriving DecidableEq

instance : Vocabulary Direction where
  all := [.fromLeft, .fromRight, .fromTop, .fromBottom]
  word
    | .fromLeft => "from-left"
    | .fromRight => "from-right"
    | .fromTop => "from-top"
    | .fromBottom => "from-bottom"

structure Presentation where
  kind : PresentationKind
  direction : Option Direction
  deriving DecidableEq

/-- How a renderer presents a transition. -/
def Transition.presentation : Transition → Presentation
  | .fade | .fadeSlow | .fadeFast => ⟨.fade, none⟩
  | .reveal => ⟨.wipe, some .fromLeft⟩
  | .wipeLeft => ⟨.wipe, some .fromRight⟩
  | .wipeRight => ⟨.wipe, some .fromLeft⟩
  | .slideLeft => ⟨.slide, some .fromRight⟩
  | .slideRight => ⟨.slide, some .fromLeft⟩
  | .slideUp => ⟨.slide, some .fromBottom⟩
  | .slideDown => ⟨.slide, some .fromTop⟩
  | .zoom => ⟨.iris, none⟩

/-- A camera movement: zoom and shift at both ends of a clip.  Shifts are
percentages of the frame. -/
structure KenBurns (α : Type) where
  effect : Effect
  fromScale : α
  toScale : α
  fromX : α
  toX : α
  fromY : α
  toY : α

/-- A movement that begins in the middle of the frame. -/
def KenBurns.centered {α : Type} [Scalar α] (effect : Effect) (fromScale toScale toX toY : α) :
    KenBurns α :=
  ⟨effect, fromScale, toScale, 0, toX, 0, toY⟩

/-- The camera movement of an effect. -/
def Effect.kenBurns {α : Type} [Scalar α] (effect : Effect) : KenBurns α :=
  match effect with
  | .zoomIn => .centered effect 1.0 1.15 0 0
  | .zoomInSlow => .centered effect 1.0 1.08 0 0
  | .zoomOut => .centered effect 1.15 1.0 0 0
  | .zoomOutSlow => .centered effect 1.08 1.0 0 0
  | .slideLeft => .centered effect 1.1 1.1 (-4.0) 0
  | .slideRight => .centered effect 1.1 1.1 4.0 0
  | .slideUp => .centered effect 1.1 1.1 0 (-4.0)
  | .slideDown => .centered effect 1.1 1.1 0 4.0

/-- How long a caption fades, in seconds. -/
def Transition.fadeSeconds {α : Type} [Scalar α] : Transition → α
  | .fadeSlow => 1.0
  | .fadeFast => 0.25
  | _ => 0.5

/-- A stretch of frames. -/
structure FrameSpan where
  start : Nat
  duration : Nat
  deriving DecidableEq

/-- A clip in frames. -/
structure FrameSequence (α : Type) where
  index : Nat
  source : String
  span : FrameSpan
  /-- The first frame of the media file that is shown. -/
  startFrom : Nat
  volume : α
  kenBurns : Option (KenBurns α)
  filter : Option Filter

/-- The blend between a clip and the next. -/
structure FrameTransition where
  /-- The index of the first of the two. -/
  after : Nat
  source : Transition
  duration : Nat
  deriving DecidableEq

/-- The blend against the background at the beginning or at the end. -/
structure FrameEdge where
  source : Transition
  duration : Nat
  deriving DecidableEq

/-- A caption in frames. -/
structure FrameOverlay where
  index : Nat
  text : String
  span : FrameSpan
  position : Position
  style : String
  color : String
  size : TextSize
  fadeIn : Nat
  fadeOut : Nat
  deriving DecidableEq

/-- The music in frames. -/
structure FrameMusic (α : Type) where
  source : String
  volume : α
  fadeIn : Nat
  fadeOut : Nat

/-- The payload for renderers that count in frames. -/
structure FramePayload (α : Type) where
  fps : Nat
  width : Nat
  height : Nat
  duration : Nat
  backgroundColor : String
  background : Option FrameSpan
  sequences : List (FrameSequence α)
  transitions : List FrameTransition
  intro : FrameEdge
  outro : FrameEdge
  overlays : List FrameOverlay
  music : Option (FrameMusic α)

namespace FramePayload

variable {α : Type} [Scalar α] (clock : Clock)

def sequenceOf (clip : ClipPlacement α) : FrameSequence α where
  index := clip.index
  source := clip.sourceReference
  span := ⟨clock.frame clip.start, clock.span clip.start clip.length⟩
  startFrom := clock.frame clip.trimStart
  volume := clip.volume
  kenBurns := clip.effect.map Effect.kenBurns
  filter := clip.filter

/-- The frames of a fade of a caption that lasts `duration` frames: its nominal
length, and half of the caption at most. -/
def fadeFrames (α : Type) [Scalar α] (duration : Nat) (transition : Transition) : Nat :=
  min (clock.frame (transition.fadeSeconds : α)) (duration / 2)

def overlayOf (overlay : OverlayPlacement α) : FrameOverlay :=
  let duration := max (clock.span overlay.start overlay.duration) 1
  { index := overlay.index
    text := overlay.text
    span := ⟨clock.frame overlay.start, duration⟩
    position := overlay.position
    style := overlay.style.style
    color := overlay.style.color
    size := overlay.style.size
    fadeIn := fadeFrames clock α duration overlay.style.fadeIn
    fadeOut := fadeFrames clock α duration overlay.style.fadeOut }

def backgroundOf (background : Background α) : FrameSpan :=
  ⟨clock.frame background.start, clock.covering background.length⟩

/-- The music fades for a second at the edges that its effect names. -/
def musicOf (soundtrack : Soundtrack α) : FrameMusic α :=
  let fade := clock.frame (1.0 : α)
  { source := soundtrack.sourceReference
    volume := soundtrack.volume
    fadeIn := if soundtrack.effect.fadesIn then fade else 0
    fadeOut := if soundtrack.effect.fadesOut then fade else 0 }

/-- The transition that opens the video; without clips it is that of the mode. -/
def opening (layout : Layout α) : Transition :=
  match layout.clips.head? with
  | some clip => clip.transition.entry
  | none => layout.modeProfile.transition.entry

/-- The transition that closes the video. -/
def closing (layout : Layout α) : Transition :=
  match layout.clips.getLast? with
  | some clip => clip.transition.exit
  | none => layout.modeProfile.transition.exit

/-- The payload of a layout. -/
def ofLayout (layout : Layout α) : FramePayload α :=
  let blend := clock.frame layout.transitionDuration
  { fps := clock.fps
    width := layout.platformProfile.width
    height := layout.platformProfile.height
    duration := clock.covering layout.videoDuration
    backgroundColor := layout.modeProfile.backgroundColor
    background := layout.background.map (backgroundOf clock)
    sequences := layout.clips.map (sequenceOf clock)
    transitions := layout.joins.map fun (after, source) => ⟨after, source, blend⟩
    intro := ⟨opening layout, blend⟩
    outro := ⟨closing layout, blend⟩
    overlays := layout.overlays.map (overlayOf clock)
    music := layout.soundtrack.map (musicOf clock) }

/-- The first frames of the clips, in order. -/
def sequenceStarts (payload : FramePayload α) : List Nat :=
  payload.sequences.map fun sequence => sequence.span.start

end FramePayload

/-! ## The text -/

section Writing

variable {α : Type}

def Presentation.toJson (presentation : Presentation) : Json α :=
  .present [
    ("kind", some (wordJson presentation.kind)),
    ("direction", presentation.direction.map wordJson)]

def KenBurns.toJson (kenBurns : KenBurns α) : Json α :=
  .obj [
    ("effect", wordJson kenBurns.effect),
    ("fromScale", .real kenBurns.fromScale),
    ("toScale", .real kenBurns.toScale),
    ("fromX", .real kenBurns.fromX),
    ("toX", .real kenBurns.toX),
    ("fromY", .real kenBurns.fromY),
    ("toY", .real kenBurns.toY)]

def FrameSpan.toJson (span : FrameSpan) : Json α :=
  .obj [("from", .nat span.start), ("durationInFrames", .nat span.duration)]

def FrameSequence.toJson (sequence : FrameSequence α) : Json α :=
  .present [
    ("index", some (.nat sequence.index)),
    ("src", some (.str sequence.source)),
    ("from", some (.nat sequence.span.start)),
    ("durationInFrames", some (.nat sequence.span.duration)),
    ("startFrom", some (.nat sequence.startFrom)),
    ("volume", some (.real sequence.volume)),
    ("kenBurns", sequence.kenBurns.map KenBurns.toJson),
    ("filter", sequence.filter.map wordJson)]

def FrameTransition.toJson (transition : FrameTransition) : Json α :=
  .obj [
    ("after", .nat transition.after),
    ("source", wordJson transition.source),
    ("presentation", transition.source.presentation.toJson),
    ("durationInFrames", .nat transition.duration)]

def FrameEdge.toJson (edge : FrameEdge) : Json α :=
  .obj [
    ("source", wordJson edge.source),
    ("presentation", edge.source.presentation.toJson),
    ("durationInFrames", .nat edge.duration)]

def FrameOverlay.toJson (overlay : FrameOverlay) : Json α :=
  .obj [
    ("index", .nat overlay.index),
    ("text", .str overlay.text),
    ("from", .nat overlay.span.start),
    ("durationInFrames", .nat overlay.span.duration),
    ("position", wordJson overlay.position),
    ("style", .str overlay.style),
    ("color", .str overlay.color),
    ("size", wordJson overlay.size),
    ("fadeInFrames", .nat overlay.fadeIn),
    ("fadeOutFrames", .nat overlay.fadeOut)]

def FrameMusic.toJson (music : FrameMusic α) : Json α :=
  .obj [
    ("src", .str music.source),
    ("volume", .real music.volume),
    ("fadeInFrames", .nat music.fadeIn),
    ("fadeOutFrames", .nat music.fadeOut)]

def FramePayload.toJson (payload : FramePayload α) : Json α :=
  .present [
    ("fps", some (.nat payload.fps)),
    ("width", some (.nat payload.width)),
    ("height", some (.nat payload.height)),
    ("durationInFrames", some (.nat payload.duration)),
    ("backgroundColor", some (.str payload.backgroundColor)),
    ("background", payload.background.map FrameSpan.toJson),
    ("sequences", some (.arr (payload.sequences.map FrameSequence.toJson))),
    ("transitions", some (.arr (payload.transitions.map FrameTransition.toJson))),
    ("intro", some payload.intro.toJson),
    ("outro", some payload.outro.toJson),
    ("overlays", some (.arr (payload.overlays.map FrameOverlay.toJson))),
    ("music", payload.music.map FrameMusic.toJson)]

end Writing

end Montage
