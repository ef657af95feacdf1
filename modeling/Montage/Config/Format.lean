import Montage.Config
import Montage.Json.Printer
import Montage.Json.Reader

/-!
# The text of the settings

Settings are written as a JSON object with every field.  In the text that is
read any field may be missing; the standard value stands in its place.
-/

namespace Montage

section Writing

variable {α : Type}

def CompilerConfig.toJson (config : CompilerConfig α) : Json α :=
  .obj [
    ("fps", .nat config.fps),
    ("overlay_lookback_secs", .real config.overlayLookback),
    ("min_overlay_secs", .real config.minOverlay),
    ("background_tail_secs", .real config.backgroundTail),
    ("ducked_clip_volume", .real config.duckedClipVolume),
    ("text_music_duck", .real config.textMusicDuck)]

def LoggingConfig.toJson (config : LoggingConfig) : Json α :=
  .obj [
    ("level", .str config.level),
    ("json", .bool config.json),
    ("file", .ofOption .str config.file)]

def Config.toJson (config : Config α) : Json α :=
  .obj [("compiler", config.compiler.toJson), ("logging", config.logging.toJson)]

end Writing

open Json in
/-- The fields of the compiler's settings. -/
def CompilerConfig.schema : Schema (CompilerConfig Float) where
  title := "CompilerConfig"
  blank := .standard
  fields := [
    .of "fps" false readCount fun fps config => { config with fps },
    .of "overlay_lookback_secs" false readReal
      fun overlayLookback config => { config with overlayLookback },
    .of "min_overlay_secs" false readReal fun minOverlay config => { config with minOverlay },
    .of "background_tail_secs" false readReal
      fun backgroundTail config => { config with backgroundTail },
    .of "ducked_clip_volume" false readReal
      fun duckedClipVolume config => { config with duckedClipVolume },
    .of "text_music_duck" false readReal
      fun textMusicDuck config => { config with textMusicDuck }]

open Json in
/-- The fields of the settings for reports. -/
def LoggingConfig.schema : Schema LoggingConfig where
  title := "LoggingConfig"
  blank := .standard
  fields := [
    .of "level" false (readText "a string") fun level config => { config with level },
    .of "json" false readBool fun json config => { config with json },
    .of "file" false (readOptional (readText "path string"))
      fun file config => { config with file }]

open Json in
/-- The fields of all settings. -/
def Config.schema : Schema (Config Float) where
  title := "ReelcraftConfig"
  blank := .standard
  fields := [
    .of "compiler" false CompilerConfig.schema.read
      fun compiler config => { config with compiler },
    .of "logging" false LoggingConfig.schema.read fun logging config => { config with logging }]

/-- Reads the text of settings. -/
def Config.parse (text : String) : Except Json.Fault (Config Float) :=
  Json.parse Config.schema.read text

end Montage
