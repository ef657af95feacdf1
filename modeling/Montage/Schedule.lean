import Montage.Plan
import Montage.Scalar

/-!
# When each clip plays

Adjacent clips share a stretch of blend: the tail of one plays beneath the head
of the next.  So each clip after the first begins that much before the one in
front of it ends, and the video is shorter than its clips laid end to end.

    clip 0 |==========|
    clip 1         |==========|
    clip 2                 |==========|

A clip needs one second of its own beside the blends at its two ends.  What is
too short, or no length at all, is refused, and the first such clip is named.
-/

namespace Montage

/-- Why a clip is refused. -/
inductive ClipFault (α : Type)
  /-- The trim is negative or not finite. -/
  | badTrim (value : α)
  /-- The length is not positive or not finite. -/
  | badLength (value : α)
  /-- The length leaves less than a second clear of the overlaps. -/
  | tooShort (length minimum overlap : α)

/-- Why the footage of a plan is refused. -/
inductive PlanFault (α : Type)
  | noClips
  | clip (index : Nat) (fault : ClipFault α)

/-- The first element with a fault, and where it stands; the list begins at
`index`. -/
def firstFault {β γ : Type} (fault? : β → Option γ) (index : Nat) : List β → Option (Nat × γ)
  | [] => none
  | b :: rest =>
    match fault? b with
    | some fault => some (index, fault)
    | none => firstFault fault? (index + 1) rest

/-- When each clip begins, and how long all of it takes. -/
structure Schedule (α : Type) where
  /-- The beginnings of the clips. -/
  starts : List α
  lengths : List α
  /-- The end of the last clip. -/
  videoDuration : α
  /-- The lengths added up. -/
  rawDuration : α

namespace Schedule

variable {α : Type} [Scalar α]

/-- How much adjacent clips overlap for a duration of their transitions. -/
def overlapOf (transition : α) : α := Scalar.atLeast 0 transition

/-- The shortest length that leaves one second clear of both overlaps. -/
def minLength (overlap : α) : α := 2.0 * overlap + 1.0

/-- What is wrong with a length.  A residue of `1e-9` below the minimum is
forgiven. -/
def lengthFault? (overlap length : α) : Option (ClipFault α) :=
  if !Scalar.isFinite length || decide (length ≤ 0) then some (.badLength length)
  else if length + 1e-9 < minLength overlap then
    some (.tooShort length (minLength overlap) overlap)
  else none

/-- What is wrong with a trim. -/
def trimFault? (trimStart : α) : Option (ClipFault α) :=
  if !Scalar.isFinite trimStart || decide (trimStart < 0) then some (.badTrim trimStart)
  else none

/-- What is wrong with the lengths of a plan. -/
def fault? (overlap : α) (lengths : List α) : Option (PlanFault α) :=
  if lengths.isEmpty then some .noClips
  else (firstFault (lengthFault? overlap) 0 lengths).map fun (index, fault) => .clip index fault

/-- The beginnings of clips of which the first begins at `start`. -/
def startsFrom (overlap : α) (start : α) : List α → List α
  | [] => []
  | length :: rest => start :: startsFrom overlap (start + length - overlap) rest

/-- The end of the last of clips of which the first begins at `start`. -/
def endFrom (overlap : α) (start : α) : List α → α
  | [] => start
  | [length] => start + length
  | length :: rest => endFrom overlap (start + length - overlap) rest

/-- The schedule of lengths that are in order. -/
def ofLengths (overlap : α) (lengths : List α) : Schedule α where
  starts := startsFrom overlap 0 lengths
  lengths := lengths
  videoDuration := endFrom overlap 0 lengths
  rawDuration := Scalar.sum lengths

/-- The schedule of clips with given lengths. -/
def estimate (transition : α) (lengths : List α) : Except (PlanFault α) (Schedule α) :=
  let overlap := overlapOf transition
  match fault? overlap lengths with
  | some fault => .error fault
  | none => .ok (ofLengths overlap lengths)

/-- The schedule of clips, their trims checked before their lengths. -/
def estimateClips (transition : α) (clips : List (Clip α)) :
    Except (PlanFault α) (Schedule α) :=
  match firstFault (fun clip => trimFault? clip.trimStart) 0 clips with
  | some (index, fault) => .error (.clip index fault)
  | none => estimate transition (clips.map Clip.length)

/-- How many clips there are. -/
def clipCount (schedule : Schedule α) : Nat := schedule.starts.length

/-- The seconds that the overlaps take away. -/
def overlapSeconds (schedule : Schedule α) : α :=
  schedule.rawDuration - schedule.videoDuration

end Schedule

end Montage
