import Montage.Scalar
import Montage.Text.Character
import Montage.Vocabulary

/-!
# Modes and platforms

A mode sets the pace and the looks of a video, a platform its frame and the
longest time it accepts.  Both are rows of fixed tables.

A plan names them by keys that people type, so a key is looked up leniently:
blanks around it, the case of ASCII letters and the choice between `-`, `_` and
a blank inside it do not matter.  A key that names nothing resolves to a
standard row.
-/

namespace Montage

/-- The pace and the looks of a video. -/
inductive Mode
  | cinematic
  | energetic
  | documentary
  | vlog
  | minimal
  deriving DecidableEq

instance : Vocabulary Mode where
  all := [.cinematic, .energetic, .documentary, .vlog, .minimal]
  word
    | .cinematic => "cinematic"
    | .energetic => "energetic"
    | .documentary => "documentary"
    | .vlog => "vlog"
    | .minimal => "minimal"

/-- Where a video is shown. -/
inductive Platform
  | youtubeShorts
  | tiktok
  | instagramReels
  | instagramFeed
  | youtube
  deriving DecidableEq

instance : Vocabulary Platform where
  all := [.youtubeShorts, .tiktok, .instagramReels, .instagramFeed, .youtube]
  word
    | .youtubeShorts => "youtube_shorts"
    | .tiktok => "tiktok"
    | .instagramReels => "instagram_reels"
    | .instagramFeed => "instagram_feed"
    | .youtube => "youtube"

/-! ## The tables -/

/-- A row of the table of modes. -/
structure ModeProfile (α : Type) where
  /-- The transitions of the opening clip. -/
  transition : TransitionPair
  /-- Seconds of blend that adjacent clips share. -/
  transitionDuration : α
  /-- Transitions that the clips after the first go through in turn. -/
  transitionPool : List TransitionPair
  /-- Effects that all clips go through in turn. -/
  effectPool : List Effect
  filter : Option Filter
  /-- Shown beneath the video. -/
  backgroundColor : String
  /-- The volume of clips where there is no music. -/
  clipVolume : α
  /-- The volume of the music where there are no captions. -/
  musicVolume : α
  musicEffect : SoundtrackEffect
  titleStyle : String
  titleColor : String

/-- A row of the table of platforms. -/
structure PlatformProfile (α : Type) where
  width : Nat
  height : Nat
  /-- The longest video that is accepted, in seconds. -/
  maxDuration : α
  /-- The ratio of the sides, as a label. -/
  aspect : String

/-- Whether the picture is taller than wide. -/
def PlatformProfile.isVertical {α : Type} (profile : PlatformProfile α) : Bool :=
  decide (profile.width < profile.height)

section Tables

variable {α : Type} [Scalar α]

/-- The row of a mode. -/
def Mode.profile : Mode → ModeProfile α
  | .cinematic =>
    { transition := .symmetric .fadeSlow
      transitionDuration := 1.0
      transitionPool := [.symmetric .fade, ⟨.reveal, .fade⟩, .symmetric .fadeSlow]
      effectPool := [.zoomInSlow, .zoomOutSlow, .slideLeft, .slideRight]
      filter := some .contrast
      backgroundColor := "#000000"
      clipVolume := 0.6
      musicVolume := 0.8
      musicEffect := .fadeInFadeOut
      titleStyle := "vogue"
      titleColor := "#ffffff" }
  | .energetic =>
    { transition := .symmetric .fadeFast
      transitionDuration := 0.3
      transitionPool :=
        [⟨.wipeLeft, .wipeRight⟩, ⟨.slideLeft, .slideRight⟩, .symmetric .zoom,
          ⟨.slideUp, .slideDown⟩]
      effectPool := [.zoomIn, .zoomOut, .slideLeft, .slideUp, .slideRight]
      filter := some .boost
      backgroundColor := "#0a0a0a"
      clipVolume := 0.5
      musicVolume := 1.0
      musicEffect := .fadeOut
      titleStyle := "blockbuster"
      titleColor := "#ffffff" }
  | .documentary =>
    { transition := .symmetric .fade
      transitionDuration := 0.75
      transitionPool := [.symmetric .fade, .symmetric .fadeSlow]
      effectPool := [.zoomInSlow, .zoomOutSlow]
      filter := none
      backgroundColor := "#111111"
      clipVolume := 1.0
      musicVolume := 0.5
      musicEffect := .fadeInFadeOut
      titleStyle := "subtitle"
      titleColor := "#f5f5f5" }
  | .vlog =>
    { transition := .symmetric .fade
      transitionDuration := 0.5
      transitionPool := [.symmetric .fadeFast, ⟨.slideLeft, .slideRight⟩, .symmetric .fade]
      effectPool := [.zoomIn, .zoomOut]
      filter := some .lighten
      backgroundColor := "#1a1a1a"
      clipVolume := 1.0
      musicVolume := 0.6
      musicEffect := .fadeInFadeOut
      titleStyle := "marker"
      titleColor := "#ffffff" }
  | .minimal =>
    { transition := .symmetric .fade
      transitionDuration := 0.5
      transitionPool := [.symmetric .fade]
      effectPool := [.zoomInSlow]
      filter := none
      backgroundColor := "#ffffff"
      clipVolume := 0.8
      musicVolume := 0.7
      musicEffect := .fadeInFadeOut
      titleStyle := "minimal"
      titleColor := "#111111" }

/-- The row of a platform. -/
def Platform.profile : Platform → PlatformProfile α
  | .youtubeShorts => { width := 1080, height := 1920, maxDuration := 60.0, aspect := "9:16" }
  | .tiktok => { width := 1080, height := 1920, maxDuration := 180.0, aspect := "9:16" }
  | .instagramReels => { width := 1080, height := 1920, maxDuration := 90.0, aspect := "9:16" }
  | .instagramFeed => { width := 1080, height := 1350, maxDuration := 60.0, aspect := "4:5" }
  | .youtube => { width := 1920, height := 1080, maxDuration := 3600.0, aspect := "16:9" }

end Tables

/-! ## Keys -/

/-- A character of a key: separators become `_`, ASCII letters lower case. -/
def foldKeyChar (c : Char) : Char := if c = '-' ∨ c = ' ' then '_' else c.toLower

/-- A key without the differences that do not matter. -/
def foldKey (key : String) : String := String.ofList ((trimBlanks key.toList).map foldKeyChar)

/-- The keys of the modes, in folded form. -/
def Mode.keys : List (String × Mode) :=
  [("cinematic", .cinematic), ("energetic", .energetic), ("hype", .energetic),
    ("documentary", .documentary), ("doc", .documentary), ("vlog", .vlog), ("minimal", .minimal)]

/-- The mode that a key names. -/
def Mode.lookup? (key : String) : Option Mode := Mode.keys.lookup (foldKey key)

/-- The mode of a key that names none. -/
def Mode.standard : Mode := .cinematic

/-- The mode of any key. -/
def Mode.resolve (key : String) : Mode := (Mode.lookup? key).getD .standard

/-- The keys of the platforms, in folded form. -/
def Platform.keys : List (String × Platform) :=
  [("youtube_shorts", .youtubeShorts), ("shorts", .youtubeShorts), ("tiktok", .tiktok),
    ("tik_tok", .tiktok), ("instagram_reels", .instagramReels), ("reels", .instagramReels),
    ("instagram", .instagramReels), ("instagram_feed", .instagramFeed), ("feed", .instagramFeed),
    ("youtube", .youtube), ("yt", .youtube)]

/-- The platform that a key names. -/
def Platform.lookup? (key : String) : Option Platform := Platform.keys.lookup (foldKey key)

/-- The platform of a key that names none. -/
def Platform.standard : Platform := .youtube

/-- The platform of any key. -/
def Platform.resolve (key : String) : Platform := (Platform.lookup? key).getD .standard

end Montage
