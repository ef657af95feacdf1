import Montage.Decimal.Binary64

/-!
# The numbers of a timeline

Times, lengths and volumes are numbers of one type.  Everything that places a
clip or a caption is written over the operations collected in `Scalar`, so the
rules of the timeline do not depend on how its numbers are rounded.  The
program runs on doubles; that instance stands at the end.

Two conversions lead from a number to a count of frames.  `Scalar.nearest`
rounds to the nearest whole number and `Scalar.ceiling` rounds up.  Both give 0
for NaN and for everything below zero, and neither passes `frameLimit`.
-/

namespace Montage

/-- The largest frame count; a conversion that would pass it stops there. -/
def frameLimit : Nat := UInt64.size - 1

/-- Numbers that times, lengths and volumes can be made of. -/
class Scalar (α : Type) extends
    Add α, Sub α, Mul α, Div α, Neg α, LT α, LE α, BEq α, OfScientific α where
  /-- A whole number. -/
  whole : Nat → α
  /-- Neither infinite nor NaN. -/
  isFinite : α → Bool
  isNaN : α → Bool
  /-- The nearest frame count, a half going up. -/
  nearest : α → Nat
  /-- The least frame count that is not below the number. -/
  ceiling : α → Nat
  decideLT : (x y : α) → Decidable (x < y)
  decideLE : (x y : α) → Decidable (x ≤ y)

namespace Scalar

variable {α : Type} [Scalar α]

instance : DecidableLT α := decideLT
instance : DecidableLE α := decideLE
instance (priority := low) {n : Nat} : OfNat α n := ⟨whole n⟩

/-- `x`, or `low` where `x` is not above it.  NaN is not above anything. -/
def atLeast (low x : α) : α := if low < x then x else low

/-- `x` moved into `[0, 1]`; NaN stays. -/
def unitInterval (x : α) : α :=
  if x < 0 then 0 else if 1 < x then 1 else x

/-- The sum from left to right. -/
def sum (xs : List α) : α := xs.foldl (· + ·) 0

end Scalar

/-- The frame count of a double under a rounding of finite magnitudes. -/
def frameCount (round : Binary64 → Nat) (x : Float) : Nat :=
  match Binary64.ofFloat? x with
  | some parts => if parts.negative then 0 else min (round parts) frameLimit
  | none => if (0 : Float) < x then frameLimit else 0

instance : Scalar Float where
  whole := Float.ofNat
  isFinite := Float.isFinite
  isNaN := Float.isNaN
  nearest := frameCount Binary64.nearest
  ceiling := frameCount Binary64.ceiling
  decideLT := fun x y => inferInstanceAs (Decidable (x < y))
  decideLE := fun x y => inferInstanceAs (Decidable (x ≤ y))

end Montage
