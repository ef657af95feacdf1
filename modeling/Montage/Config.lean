import Montage.Clock

/-!
# Settings

The settings of the compiler change the numbers of a timeline and never its
structure.  `CompilerConfig.validate` says which settings make sense, and names
the first that does not.
-/

namespace Montage

/-- The settings of the compiler. -/
structure CompilerConfig (α : Type) where
  /-- Frames per second of payloads that count in frames. -/
  fps : Nat
  /-- The gap left before the end when a late caption is moved back. -/
  overlayLookback : α
  /-- The shortest time a caption is shown. -/
  minOverlay : α
  /-- How far the background goes on behind the last frame. -/
  backgroundTail : α
  /-- The volume of clips under music. -/
  duckedClipVolume : α
  /-- What the volume of the music is multiplied with when there are captions. -/
  textMusicDuck : α

/-- A setting that is a time. -/
inductive Margin
  | overlayLookback
  | minOverlay
  | backgroundTail
  deriving DecidableEq

/-- A setting that is a volume. -/
inductive Level
  | duckedClipVolume
  | textMusicDuck
  deriving DecidableEq

/-- Why settings are refused. -/
inductive ConfigFault (α : Type)
  | frameRateZero
  /-- A time that is negative or not finite. -/
  | margin (which : Margin) (value : α)
  /-- A volume outside `[0, 1]`. -/
  | level (which : Level) (value : α)

namespace CompilerConfig

variable {α : Type} [Scalar α]

/-- The settings where nothing is said. -/
def standard : CompilerConfig α where
  fps := Clock.standardRate
  overlayLookback := 0.5
  minOverlay := 0.5
  backgroundTail := 1.0
  duckedClipVolume := 0.2
  textMusicDuck := 0.8

/-- The same settings at another frame rate. -/
def withFps (config : CompilerConfig α) (fps : Nat) : CompilerConfig α := { config with fps }

def margin (config : CompilerConfig α) : Margin → α
  | .overlayLookback => config.overlayLookback
  | .minOverlay => config.minOverlay
  | .backgroundTail => config.backgroundTail

def level (config : CompilerConfig α) : Level → α
  | .duckedClipVolume => config.duckedClipVolume
  | .textMusicDuck => config.textMusicDuck

/-- Whether a value serves as a margin. -/
def isMargin (value : α) : Bool := Scalar.isFinite value && !decide (value < 0)

/-- Whether a value serves as a volume. -/
def isLevel (value : α) : Bool := decide (0 ≤ value) && decide (value ≤ 1)

/-- The first setting that does not make sense: the frame rate, then the
margins, then the volumes. -/
def fault? (config : CompilerConfig α) : Option (ConfigFault α) :=
  if config.fps = 0 then some .frameRateZero
  else match [Margin.overlayLookback, .minOverlay, .backgroundTail].find?
      fun which => !isMargin (config.margin which) with
    | some which => some (.margin which (config.margin which))
    | none =>
      ([Level.duckedClipVolume, .textMusicDuck].find?
        fun which => !isLevel (config.level which)).map
          fun which => .level which (config.level which)

/-- Whether all settings make sense, or the first that does not. -/
def validate (config : CompilerConfig α) : Except (ConfigFault α) Unit :=
  match config.fault? with
  | some fault => .error fault
  | none => .ok ()

end CompilerConfig

/-- How the program reports what it does. -/
structure LoggingConfig where
  level : String
  /-- Whether reports are JSON. -/
  json : Bool
  /-- The file they go to. -/
  file : Option String
  deriving DecidableEq

/-- Reports of middling detail that go to no file. -/
def LoggingConfig.standard : LoggingConfig := ⟨"info", false, none⟩

/-- All settings of the program. -/
structure Config (α : Type) where
  compiler : CompilerConfig α
  logging : LoggingConfig

/-- The settings where nothing is said. -/
def Config.standard {α : Type} [Scalar α] : Config α := ⟨.standard, .standard⟩

end Montage
