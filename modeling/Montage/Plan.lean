import Montage.Json.Basic
import Montage.Scalar
import Montage.Vocabulary

/-!
# Edit plans

A plan says which footage is played in which order, and with which captions and
music.  It is written by an editor and only read here: references to media and
hints about scenes are carried along and never looked into.

Plans can be put together step by step, from `Plan.empty` with `withClip`,
`withOverlay` and `withMusic`.
-/

namespace Montage

/-- One stretch of footage. -/
structure Clip (α : Type) where
  /-- Names the media file. -/
  sourceReference : String
  /-- Where in the file the stretch begins, in seconds. -/
  trimStart : α
  /-- Seconds of footage, blends with the neighbours included. -/
  length : α
  /-- Takes the place of the effect that the mode would give. -/
  effect : Option Effect
  /-- Takes the place of the filter of the mode. -/
  filter : Option Filter
  /-- Takes the place of the transitions that the mode would give. -/
  transition : Option TransitionPair
  /-- Carried along untouched. -/
  hints : Option (Json α)

/-- A caption. -/
structure Overlay (α : Type) where
  text : String
  /-- When it should appear, in seconds; this may lie behind the end. -/
  start : α
  /-- How long it should stay. -/
  duration : α
  position : Position

/-- The music under the whole video. -/
structure Music (α : Type) where
  sourceReference : String
  /-- The mode decides where nothing is said. -/
  volume : Option α

/-- An edit plan. -/
structure Plan (α : Type) where
  /-- Key of the editing mode. -/
  mode : String
  /-- Key of the platform. -/
  platform : String
  /-- In the order in which they are played. -/
  clips : List (Clip α)
  /-- In the order in which they are listed. -/
  overlays : List (Overlay α)
  music : Option (Music α)

variable {α : Type}

namespace Clip

/-- Footage from the head of its file. -/
def ofLength [Scalar α] (sourceReference : String) (length : α) : Clip α :=
  { sourceReference, trimStart := 0, length
    effect := none, filter := none, transition := none, hints := none }

/-- The same length of footage from another place in the file. -/
def trimmed (clip : Clip α) (trimStart : α) : Clip α := { clip with trimStart }

def withEffect (clip : Clip α) (effect : Effect) : Clip α := { clip with effect := some effect }

def withFilter (clip : Clip α) (filter : Filter) : Clip α := { clip with filter := some filter }

def withTransition (clip : Clip α) (transition : TransitionPair) : Clip α :=
  { clip with transition := some transition }

end Clip

namespace Overlay

/-- A caption in the middle of the picture. -/
def ofSpan (text : String) (start duration : α) : Overlay α :=
  { text, start, duration, position := .center }

/-- The same caption at another place. -/
def placed (overlay : Overlay α) (position : Position) : Overlay α := { overlay with position }

end Overlay

namespace Music

/-- Music at the volume of the mode. -/
def ofReference (sourceReference : String) : Music α := { sourceReference, volume := none }

def withVolume (music : Music α) (volume : α) : Music α := { music with volume := some volume }

end Music

namespace Plan

/-- A plan without footage. -/
def empty (mode platform : String) : Plan α :=
  { mode, platform, clips := [], overlays := [], music := none }

/-- One more clip at the end. -/
def withClip (plan : Plan α) (clip : Clip α) : Plan α :=
  { plan with clips := plan.clips ++ [clip] }

/-- One more caption at the end. -/
def withOverlay (plan : Plan α) (overlay : Overlay α) : Plan α :=
  { plan with overlays := plan.overlays ++ [overlay] }

/-- Other music. -/
def withMusic (plan : Plan α) (music : Music α) : Plan α := { plan with music := some music }

/-- The lengths of all clips added up. -/
def rawDuration [Scalar α] (plan : Plan α) : α := Scalar.sum (plan.clips.map Clip.length)

def hasMusic (plan : Plan α) : Bool := plan.music.isSome

end Plan

end Montage
