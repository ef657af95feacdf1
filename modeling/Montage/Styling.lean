import Montage.Plan
import Montage.Profile

/-!
# What clips and captions look like

A mode offers pools of effects and transitions.  Clips go through a pool in
turn, so what a clip gets depends on its index alone, and the same plan always
looks the same.  What the plan asks for wins over the pools, with one
exception: the opening clip keeps the transitions of the mode.

Captions get their size and their fades from where they stand on the picture
and in the list of captions.
-/

namespace Montage

/-- The element of a pool whose turn it is. -/
def pick? {β : Type} (pool : List β) (index : Nat) : Option β := pool[index % pool.length]?

section Clips

variable {α : Type} (profile : ModeProfile α)

/-- The effect of the pool for the clip at an index. -/
def effectFor (index : Nat) : Option Effect := pick? profile.effectPool index

/-- The transitions of the mode for the clip at an index. -/
def transitionFor (index : Nat) : TransitionPair :=
  if index = 0 then profile.transition
  else (pick? profile.transitionPool index).getD profile.transition

/-- What a clip looks like. -/
structure ClipStyle where
  transition : TransitionPair
  effect : Option Effect
  filter : Option Filter
  deriving DecidableEq

/-- What the clip at an index looks like. -/
def styleClip (index : Nat) (clip : Clip α) : ClipStyle where
  transition := if index = 0 then profile.transition
    else clip.transition.getD (transitionFor profile index)
  effect := clip.effect.or (effectFor profile index)
  filter := clip.filter.or profile.filter

end Clips

/-- The size of a caption. -/
inductive TextSize
  | small
  | medium
  | large
  | xLarge
  deriving DecidableEq

instance : Vocabulary TextSize where
  all := [.small, .medium, .large, .xLarge]
  word
    | .small => "small"
    | .medium => "medium"
    | .large => "large"
    | .xLarge => "x-large"

/-- What a caption looks like. -/
structure OverlayStyle where
  style : String
  color : String
  size : TextSize
  fadeIn : Transition
  fadeOut : Transition
  deriving DecidableEq

/-- The size of a caption: the first is the largest, and between the first and
the last those in the middle of the picture are larger than the others. -/
def textSize (position : Position) (isFirst isLast : Bool) : TextSize :=
  if isFirst then .large
  else if isLast then .medium
  else match position with
    | .center => .medium
    | .top | .bottom => .small

/-- What a caption looks like.  The first fades in slowly, the last fades out
slowly, and every other fade has the pace of the mode. -/
def overlayStyle {α : Type} [Scalar α] (profile : ModeProfile α) (position : Position)
    (isFirst isLast : Bool) : OverlayStyle :=
  let paced : Transition := if profile.transitionDuration < 0.5 then .fadeFast else .fade
  { style := profile.titleStyle
    color := profile.titleColor
    size := textSize position isFirst isLast
    fadeIn := if isFirst then .fadeSlow else paced
    fadeOut := if isLast then .fadeSlow else paced }

end Montage
