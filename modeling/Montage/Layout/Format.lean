import Montage.Layout
import Montage.Plan.Format

/-!
# The text of a layout

The JSON forms of layouts, of their warnings and of the rows of the tables.
-/

namespace Montage

variable {α : Type}

def ModeProfile.toJson (profile : ModeProfile α) : Json α :=
  .obj [
    ("transition", profile.transition.toJson),
    ("transition_duration", .real profile.transitionDuration),
    ("transition_pool", .arr (profile.transitionPool.map TransitionPair.toJson)),
    ("effect_pool", .arr (profile.effectPool.map wordJson)),
    ("filter", .ofOption wordJson profile.filter),
    ("background_color", .str profile.backgroundColor),
    ("clip_volume", .real profile.clipVolume),
    ("music_volume", .real profile.musicVolume),
    ("music_effect", wordJson profile.musicEffect),
    ("title_style", .str profile.titleStyle),
    ("title_color", .str profile.titleColor)]

def PlatformProfile.toJson (profile : PlatformProfile α) : Json α :=
  .obj [
    ("width", .nat profile.width),
    ("height", .nat profile.height),
    ("max_duration_secs", .real profile.maxDuration),
    ("aspect", .str profile.aspect)]

def Warning.toJson : Warning α → Json α
  | .unknownMode requested fallback =>
    .obj [
      ("kind", .str "unknown_mode"),
      ("requested", .str requested),
      ("fallback", wordJson fallback)]
  | .unknownPlatform requested fallback =>
    .obj [
      ("kind", .str "unknown_platform"),
      ("requested", .str requested),
      ("fallback", wordJson fallback)]
  | .exceedsPlatformDuration videoDuration maxDuration =>
    .obj [
      ("kind", .str "exceeds_platform_duration"),
      ("video_duration", .real videoDuration),
      ("max_duration", .real maxDuration)]
  | .overlayAdjusted index requested placed =>
    .obj [
      ("kind", .str "overlay_adjusted"),
      ("index", .nat index),
      ("requested_start", .real requested.start),
      ("requested_duration", .real requested.duration),
      ("start", .real placed.start),
      ("duration", .real placed.duration)]

def ClipPlacement.toJson (clip : ClipPlacement α) : Json α :=
  .obj [
    ("index", .nat clip.index),
    ("source_reference", .str clip.sourceReference),
    ("trim_start", .real clip.trimStart),
    ("start", .real clip.start),
    ("length", .real clip.length),
    ("transition", clip.transition.toJson),
    ("effect", .ofOption wordJson clip.effect),
    ("filter", .ofOption wordJson clip.filter),
    ("volume", .real clip.volume)]

def OverlayStyle.toJson (style : OverlayStyle) : Json α :=
  .obj [
    ("style", .str style.style),
    ("color", .str style.color),
    ("size", wordJson style.size),
    ("fade_in", wordJson style.fadeIn),
    ("fade_out", wordJson style.fadeOut)]

def OverlayPlacement.toJson (overlay : OverlayPlacement α) : Json α :=
  .obj [
    ("index", .nat overlay.index),
    ("text", .str overlay.text),
    ("start", .real overlay.start),
    ("duration", .real overlay.duration),
    ("position", wordJson overlay.position),
    ("is_first", .bool overlay.isFirst),
    ("is_last", .bool overlay.isLast),
    ("style", overlay.style.toJson)]

def Background.toJson (background : Background α) : Json α :=
  .obj [
    ("color", .str background.color),
    ("start", .real background.start),
    ("length", .real background.length)]

def Soundtrack.toJson (soundtrack : Soundtrack α) : Json α :=
  .obj [
    ("source_reference", .str soundtrack.sourceReference),
    ("effect", wordJson soundtrack.effect),
    ("volume", .real soundtrack.volume)]

def Layout.toJson (layout : Layout α) : Json α :=
  .obj [
    ("mode", wordJson layout.mode),
    ("platform", wordJson layout.platform),
    ("transition_duration", .real layout.transitionDuration),
    ("video_duration", .real layout.videoDuration),
    ("raw_duration", .real layout.rawDuration),
    ("clips", .arr (layout.clips.map ClipPlacement.toJson)),
    ("overlays", .arr (layout.overlays.map OverlayPlacement.toJson)),
    ("background", .ofOption Background.toJson layout.background),
    ("soundtrack", .ofOption Soundtrack.toJson layout.soundtrack),
    ("warnings", .arr (layout.warnings.map Warning.toJson))]

def Layout.Summary.toJson (summary : Layout.Summary α) : Json α :=
  .obj [
    ("clip_count", .nat summary.clipCount),
    ("overlay_count", .nat summary.overlayCount),
    ("raw_duration", .real summary.rawDuration),
    ("video_duration", .real summary.videoDuration),
    ("overlap_secs", .real summary.overlap),
    ("has_soundtrack", .bool summary.hasSoundtrack)]

end Montage
