import Montage.Compiler

/-!
# What is told along the way

While it works the program tells what it does: which keys name nothing, how long the video
is, what has been put right, which file has been written.  An `Event` is such a piece of
news, and no event has a part in what a command prints or in how it ends.

The words for events are left open.  Which events are told at all, their level, the time of
day in front of them and whether they are lines or JSON are matters of `Reports`, which can
be any texts.
-/

namespace Montage

namespace CommandLine

/-- Something that is told along the way. -/
inductive Event
  /-- A key names nothing, or a caption had to move. -/
  | noticed (warning : Warning Float)
  /-- The durations of the video and of its footage are known. -/
  | estimated (clips : Nat) (videoDuration rawDuration : Float)
  /-- The video is too long for its platform. -/
  | tooLong (platform : Platform) (videoDuration maxDuration : Float)
  /-- The layout is computed. -/
  | resolved (layout : Layout Float)
  /-- A plan is compiled that departs from what it asks for. -/
  | normalized (warning : Warning Float)
  /-- A payload stands in its file. -/
  | wrote (output : String) (backend : Backend)

/-- What is told about keys that name nothing. -/
def keyEvents (mode platform : String) : List Event :=
  ((Layout.modeWarning? mode).toList ++ (Layout.platformWarning? platform).toList).map .noticed

/-- What is told of a warning when it is found; keys have been looked at before. -/
def warningEvent? (platform : Platform) : Warning Float → Option Event
  | .unknownMode _ _ | .unknownPlatform _ _ => none
  | .exceedsPlatformDuration videoDuration maxDuration =>
    some (.tooLong platform videoDuration maxDuration)
  | .overlayAdjusted index requested placed =>
    some (.noticed (.overlayAdjusted index requested placed))

/-- What is told while a layout is computed under two keys: the durations stand behind the
keys and in front of everything that depends on them. -/
def layoutEvents (mode platform : String) (layout : Layout Float) : List Event :=
  keyEvents mode platform
    ++ .estimated layout.clips.length layout.videoDuration layout.rawDuration
      :: layout.warnings.filterMap (warningEvent? layout.platform)
    ++ [.resolved layout]

/-- The words for events that follow each other, as the settings want them. -/
def Reports := LoggingConfig → List Event → String

/-- No words for anything. -/
def Reports.silent : Reports := fun _ _ => ""

end CommandLine

end Montage
