import Montage.Compiler
import Montage.Layout.Format
import Montage.Problem

/-!
# What the commands print

The texts that commands print about plans and about the tables, line by line.
-/

namespace Montage

namespace CommandLine

/-- Lines with their ends. -/
def unlines (lines : List String) : String := String.join (lines.map (· ++ "\n"))

/-- A word, or a dash where there is none. -/
def wordOrDash {β : Type} [Vocabulary β] : Option β → String
  | some b => Vocabulary.word b
  | none => "-"

/-- A time with two decimals. -/
def seconds (x : Float) : String := Decimal.fixed 2 x ++ "s"

/-- A warning as a sentence. -/
def describe : Warning Float → String
  | .unknownMode requested fallback =>
    "unknown mode '" ++ requested ++ "', using " ++ Vocabulary.word fallback
  | .unknownPlatform requested fallback =>
    "unknown platform '" ++ requested ++ "', using " ++ Vocabulary.word fallback
  | .exceedsPlatformDuration videoDuration maxDuration =>
    "video runs " ++ seconds videoDuration ++ ", platform limit is "
      ++ Decimal.fixed 0 maxDuration ++ "s"
  | .overlayAdjusted index requested placed =>
    "overlay " ++ toString index ++ " moved from " ++ seconds requested.start ++ "+"
      ++ seconds requested.duration ++ " to " ++ seconds placed.start ++ "+"
      ++ seconds placed.duration

/-- What `validate` prints about a layout. -/
def validation (layout : Layout Float) : List String :=
  ["  Clips: " ++ toString layout.clips.length,
    "  Overlays: " ++ toString layout.overlays.length,
    "  Visible duration: " ++ seconds layout.videoDuration,
    ""]
  ++ if layout.warnings.isEmpty then ["Plan is valid."]
    else
      "Normalizations:" :: layout.warnings.map (fun warning => "  - " ++ describe warning)
        ++ ["", toString layout.warnings.length ++ " adjustment(s) applied. Plan compiles."]

/-- The frames of a stretch of time, and the time of the first of them. -/
def frameRange (clock : Clock) (start length : Float) : String :=
  let first := clock.frame start
  "frames " ++ toString first ++ ".." ++ toString (first + clock.span start length)
    ++ " (@" ++ Decimal.fixed 3 (clock.seconds first) ++ "s)"

/-- A line of `info` about a clip. -/
def clipLine (clock : Clock) (clip : ClipPlacement Float) : String :=
  "  [" ++ toString clip.index ++ "] " ++ clip.sourceReference ++ " @ " ++ seconds clip.start
    ++ " for " ++ seconds clip.length ++ "  " ++ frameRange clock clip.start clip.length
    ++ "  in=" ++ Vocabulary.word clip.transition.entry
    ++ " out=" ++ Vocabulary.word clip.transition.exit
    ++ " effect=" ++ wordOrDash clip.effect ++ " filter=" ++ wordOrDash clip.filter

/-- The name of a size in listings. -/
def sizeName : TextSize → String
  | .small => "Small"
  | .medium => "Medium"
  | .large => "Large"
  | .xLarge => "XLarge"

/-- A line of `info` about a caption. -/
def overlayLine (clock : Clock) (overlay : OverlayPlacement Float) : String :=
  "  [" ++ toString overlay.index ++ "] \"" ++ overlay.text ++ "\" @ " ++ seconds overlay.start
    ++ " for " ++ seconds overlay.duration ++ "  "
    ++ frameRange clock overlay.start overlay.duration
    ++ "  (" ++ sizeName overlay.style.size ++ ")"

/-- The frame of a platform: its sides, their ratio and which is longer. -/
def frameShape (profile : PlatformProfile Float) : String :=
  toString profile.width ++ "x" ++ toString profile.height ++ ", " ++ profile.aspect ++ ", "
    ++ if profile.isVertical then "vertical" else "landscape"

/-- What `info` prints about the layout of the plan in a file. -/
def information (path : String) (clock : Clock) (layout : Layout Float) : List String :=
  let summary := layout.summary
  ["Plan: " ++ path,
    "  Mode: " ++ Vocabulary.word layout.mode,
    "  Platform: " ++ Vocabulary.word layout.platform ++ " ("
      ++ frameShape layout.platformProfile ++ ")",
    "",
    "Duration:",
    "  Raw: " ++ seconds summary.rawDuration,
    "  Visible: " ++ seconds summary.videoDuration ++ " ("
      ++ toString (clock.covering summary.videoDuration) ++ " frames @ "
      ++ toString clock.fps ++ "fps)",
    "  Overlap: " ++ seconds summary.overlap,
    "",
    "Clips:"]
  ++ layout.clips.map (clipLine clock)
  ++ (if layout.overlays.isEmpty then []
    else ["", "Overlays:"] ++ layout.overlays.map (overlayLine clock))
  ++ (match layout.soundtrack with
    | none => []
    | some soundtrack =>
      ["", "Soundtrack: " ++ soundtrack.sourceReference ++ " (volume "
        ++ Decimal.fixed 2 soundtrack.volume ++ ")"])
  ++ (if layout.warnings.isEmpty then []
    else ["", "Warnings: " ++ toString layout.warnings.length]
      ++ layout.warnings.map fun warning => "  " ++ warning.toJson.compact)

/-- What stands behind the name of the standard row. -/
def standardMark (isStandard : Bool) : String := if isStandard then " (default)" else ""

/-- What `profiles` prints about a mode. -/
def modeLines (mode : Mode) : List String :=
  let profile : ModeProfile Float := mode.profile
  ["  " ++ Vocabulary.word mode ++ standardMark (mode == .standard),
    "    transition: " ++ Vocabulary.word profile.transition.entry ++ " / "
      ++ Vocabulary.word profile.transition.exit ++ " over "
      ++ seconds profile.transitionDuration ++ " (min clip "
      ++ seconds (Schedule.minLength profile.transitionDuration) ++ ")",
    "    effects: " ++ ", ".intercalate (profile.effectPool.map Vocabulary.word),
    "    filter: " ++ wordOrDash profile.filter ++ "  background: " ++ profile.backgroundColor]

/-- What `profiles` prints about a platform. -/
def platformLine (platform : Platform) : String :=
  let profile : PlatformProfile Float := platform.profile
  "  " ++ Vocabulary.word platform ++ standardMark (platform == .standard) ++ ": "
    ++ toString profile.width ++ "x" ++ toString profile.height ++ " " ++ profile.aspect
    ++ " max " ++ Decimal.fixed 0 profile.maxDuration ++ "s"

/-- What `profiles` prints. -/
def tables : List String :=
  "Modes:" :: (Vocabulary.all (α := Mode)).flatMap modeLines
    ++ "" :: "Platforms:" :: (Vocabulary.all (α := Platform)).map platformLine

/-- What is printed behind the writing of a payload to a file. -/
def written (plan output : String) (layout : Layout Float) : String :=
  "Compiled " ++ plan ++ " (" ++ toString layout.clips.length ++ " clips, "
    ++ seconds layout.videoDuration ++ ") -> " ++ output

end CommandLine

end Montage
