import Montage.Scalar

/-!
# The frame clock

A clock runs at a fixed whole number of frames per second.  It is the one place
where a time becomes a frame index, so two payloads that use it cannot disagree
on where a clip lands.

Spans are rounded at both edges instead of by their length: two spans that
share an edge in seconds share it in frames.
-/

namespace Montage

/-- A fixed frame rate; no clock stands still. -/
structure Clock where
  fps : Nat
  fps_pos : 0 < fps

namespace Clock

/-- The clock of a rate; a rate of 0 counts as 1. -/
def ofRate (rate : Nat) : Clock := ⟨max rate 1, by omega⟩

/-- Frames per second where nothing else is asked for. -/
def standardRate : Nat := 30

/-- The clock at the standard rate. -/
def standard : Clock := ofRate standardRate

variable {α : Type} [Scalar α] (clock : Clock)

/-- The frames that `seconds` lasts, before rounding; a negative time counts as
zero. -/
def ticks (seconds : α) : α := Scalar.atLeast 0 seconds * Scalar.whole clock.fps

/-- The frame nearest to a time. -/
def frame (seconds : α) : Nat := Scalar.nearest (clock.ticks seconds)

/-- The frames needed to cover a time completely.  A residue of up to `1e-9` of
a frame is not worth a frame of its own. -/
def covering (seconds : α) : Nat := Scalar.ceiling (clock.ticks seconds - 1e-9)

/-- The frames between the rounded edges of `[start, start + length)`. -/
def span (start length : α) : Nat := clock.frame (start + length) - clock.frame start

/-- The time of a frame. -/
def seconds (frame : Nat) : α := Scalar.whole frame / Scalar.whole clock.fps

end Clock

end Montage
