import Montage.Json.Printer
import Montage.Payload.Frames
import Montage.Payload.Tracks

/-!
# The compiler

A plan goes in, a payload for a renderer comes out.  A compiler is a choice of
settings that make sense; it keeps nothing from one plan to the next.

Every way through it computes one layout and reshapes it: `tracks` for
compositors that work in seconds, `frames` for renderers that count in frames,
`both` for the two of them from one layout, `text` for their JSON.
-/

namespace Montage

/-- Which payload is asked for. -/
inductive Backend
  | seconds
  | frames
  deriving DecidableEq

instance : Vocabulary Backend where
  all := [.seconds, .frames]
  word
    | .seconds => "seconds"
    | .frames => "frames"

namespace Backend

/-- A word for a payload as people type it: blanks around it and the case of
ASCII letters do not matter. -/
def foldWord (text : String) : String :=
  String.ofList ((trimBlanks text.toList).map Char.toLower)

/-- The words for payloads, in folded form. -/
def words : List (String × Backend) :=
  [("seconds", .seconds), ("json", .seconds), ("frames", .frames), ("props", .frames)]

/-- The payload that a text names. -/
def parse? (text : String) : Option Backend := words.lookup (foldWord text)

end Backend

/-- Settings that make sense. -/
structure Compiler (α : Type) [Scalar α] where
  config : CompilerConfig α
  sound : config.fault? = none

namespace Compiler

variable {α : Type} [Scalar α]

/-- The compiler with given settings, if they make sense. -/
def new (config : CompilerConfig α) : Except (ConfigFault α) (Compiler α) :=
  match h : config.fault? with
  | none => .ok ⟨config, h⟩
  | some fault => .error fault

variable (compiler : Compiler α)

/-- The clock of the payloads in frames. -/
def clock : Clock := .ofRate compiler.config.fps

/-- The layout of a plan in the mode and on the platform of two keys. -/
def layoutAs (plan : Plan α) (mode platform : String) : Except (LayoutFault α) (Layout α) :=
  Layout.computeAs plan mode platform compiler.config

/-- The layout of a plan in its own mode and on its own platform. -/
def layout (plan : Plan α) : Except (LayoutFault α) (Layout α) :=
  compiler.layoutAs plan plan.mode plan.platform

/-- The payload in seconds of a layout. -/
def tracksOf (layout : Layout α) : TrackPayload α :=
  TrackPayload.ofLayout compiler.config.fps layout

/-- The payload in frames of a layout. -/
def framesOf (layout : Layout α) : FramePayload α :=
  FramePayload.ofLayout compiler.clock layout

/-- The payload in seconds of a plan under two keys. -/
def tracksAs (plan : Plan α) (mode platform : String) :
    Except (LayoutFault α) (TrackPayload α) := do
  return compiler.tracksOf (← compiler.layoutAs plan mode platform)

/-- The payload in seconds of a plan. -/
def tracks (plan : Plan α) : Except (LayoutFault α) (TrackPayload α) := do
  return compiler.tracksOf (← compiler.layout plan)

/-- The payload in frames of a plan under two keys. -/
def framesAs (plan : Plan α) (mode platform : String) :
    Except (LayoutFault α) (FramePayload α) := do
  return compiler.framesOf (← compiler.layoutAs plan mode platform)

/-- The payload in frames of a plan. -/
def frames (plan : Plan α) : Except (LayoutFault α) (FramePayload α) := do
  return compiler.framesOf (← compiler.layout plan)

/-- Both payloads of a plan, from one layout. -/
def both (plan : Plan α) : Except (LayoutFault α) (TrackPayload α × FramePayload α) := do
  let layout ← compiler.layout plan
  return (compiler.tracksOf layout, compiler.framesOf layout)

/-- The payload of a layout as JSON. -/
def payloadJson (layout : Layout α) : Backend → Json α
  | .seconds => (compiler.tracksOf layout).toJson
  | .frames => (compiler.framesOf layout).toJson

/-- The text of the payload of a layout. -/
def textOf (compiler : Compiler Float) (layout : Layout Float) (backend : Backend) : String :=
  (compiler.payloadJson layout backend).pretty

/-- The text of the payload of a plan under two keys. -/
def textAs (compiler : Compiler Float) (plan : Plan Float) (mode platform : String)
    (backend : Backend) : Except (LayoutFault Float) String := do
  return compiler.textOf (← compiler.layoutAs plan mode platform) backend

/-- The text of the payload of a plan. -/
def text (compiler : Compiler Float) (plan : Plan Float) (backend : Backend) :
    Except (LayoutFault Float) String := do
  return compiler.textOf (← compiler.layout plan) backend

end Compiler

end Montage
