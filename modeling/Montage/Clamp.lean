import Montage.Config

/-!
# Keeping captions inside the video

Captions are placed by people who look at the raw footage, so a caption may
begin or end behind the last visible frame.  A clamp pulls it back:

1. a caption that begins at or behind the end, or runs past it, moves so that
   it ends a margin before the end;
2. it does not begin before the video does;
3. what still runs past the end is cut off;
4. it is shown for a shortest time at least, and moves forward once more if
   that does not fit.

The result is a span for every request, NaN and the infinities included.
-/

namespace Montage

/-- A stretch of time. -/
structure Span (α : Type) where
  start : α
  duration : α

/-- The end of a span. -/
def Span.stop {α : Type} [Scalar α] (span : Span α) : α := span.start + span.duration

/-- The margins that captions keep. -/
structure Clamp (α : Type) where
  /-- The gap before the end where a late caption ends. -/
  lookback : α
  /-- The shortest time a caption is shown. -/
  minimum : α

namespace Clamp

variable {α : Type} [Scalar α]

/-- The clamp with two margins; negative ones count as zero. -/
def ofMargins (lookback minimum : α) : Clamp α :=
  ⟨Scalar.atLeast 0 lookback, Scalar.atLeast 0 minimum⟩

/-- The clamp of the settings. -/
def ofConfig (config : CompilerConfig α) : Clamp α :=
  ofMargins config.overlayLookback config.minOverlay

/-- The clamp of the standard settings. -/
def standard : Clamp α := ofConfig .standard

/-- The length of a video that captions can rely on. -/
def reliable (video : α) : α := if Scalar.isFinite video then Scalar.atLeast 0 video else 0

/-- The duration that was asked for, as a time that can pass. -/
def requested (duration : α) : α :=
  if Scalar.isNaN duration then 0 else Scalar.atLeast 0 duration

/-- Whether a span begins at or behind the end of the video, or runs past it. -/
def overruns (video start duration : α) : Bool :=
  decide (video ≤ start) || decide (video < start + duration)

/-- The beginning after a late caption has been moved back, at zero at least. -/
def shiftedStart (clamp : Clamp α) (video start duration : α) : α :=
  Scalar.atLeast 0
    (if overruns video start duration then video - duration - clamp.lookback else start)

/-- The duration without what runs past the end, at the minimum at least. -/
def fittedDuration (clamp : Clamp α) (video start duration : α) : α :=
  Scalar.atLeast clamp.minimum
    (if video < start + duration then video - start else duration)

/-- The beginning after the minimum may have pushed the end out again. -/
def settledStart (video start duration : α) : α :=
  if video < start + duration then Scalar.atLeast 0 (video - duration) else start

/-- The span that a request gets in a video. -/
def place (clamp : Clamp α) (video : α) (request : Span α) : Span α :=
  let video := reliable video
  let duration := requested request.duration
  let start := clamp.shiftedStart video request.start duration
  let duration := clamp.fittedDuration video start duration
  ⟨settledStart video start duration, duration⟩

end Clamp

/-- Whether a span differs from the one that was asked for.  NaN differs from
everything. -/
def Span.differs {α : Type} [Scalar α] (placed request : Span α) : Bool :=
  placed.start != request.start || placed.duration != request.duration

end Montage
