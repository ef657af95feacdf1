/-!
# Finite doubles as exact fractions

A finite double is `± significand * 2 ^ exponent` with whole `significand`, so
every question about rounding it is a question about whole numbers.

* `Binary64.ofFloat?` takes a double apart; infinities and NaN have no parts;
* `Binary64.ratio` gives the magnitude as a fraction of two whole numbers;
* `Binary64.nearest` and `Binary64.ceiling` round the magnitude to a whole
  number, a half going up in the first.

Powers are written with `Nat.pow`: `^` means something else in a module that
knows about monoids, and definitions are not to depend on who reads them.
-/

namespace Montage

/-- A finite double: sign, significand and binary exponent. -/
structure Binary64 where
  negative : Bool
  significand : Nat
  exponent : Int
  deriving DecidableEq

namespace Binary64

/-- The parts of a double.  Exponent field 2047 holds the infinities and NaN;
exponent field 0 holds zero and the subnormal numbers, whose significand has
no hidden leading bit. -/
def ofFloat? (x : Float) : Option Binary64 :=
  let bits : Nat := x.toBits.toNat
  let negative := decide (Nat.pow 2 63 ≤ bits)
  let field : Nat := bits / Nat.pow 2 52 % Nat.pow 2 11
  let fraction : Nat := bits % Nat.pow 2 52
  if field = 2047 then none
  else if field = 0 then some ⟨negative, fraction, -1074⟩
  else some ⟨negative, fraction + Nat.pow 2 52, (field : Int) - 1075⟩

/-- The magnitude as numerator and denominator. -/
def ratio (x : Binary64) : Nat × Nat :=
  if x.exponent < 0 then (x.significand, Nat.pow 2 (-x.exponent).toNat)
  else (x.significand * Nat.pow 2 x.exponent.toNat, 1)

/-- Whether the number below `x` is only half as far away as the one above:
the case of a power of two, subnormal numbers apart. -/
def narrowBelow (x : Binary64) : Bool :=
  x.significand == Nat.pow 2 52 && decide (-1074 < x.exponent)

/-- The whole number nearest to the magnitude, a half going up. -/
def nearest (x : Binary64) : Nat :=
  let (num, den) := x.ratio
  (2 * num + den) / (2 * den)

/-- The least whole number that is not below the magnitude. -/
def ceiling (x : Binary64) : Nat :=
  let (num, den) := x.ratio
  (num + den - 1) / den

/-- The denominator of the magnitude is not zero, so it can be divided by. -/
theorem ratio_den_pos (x : Binary64) : 0 < x.ratio.2 := by
  unfold ratio
  split
  · exact Nat.pow_pos (by decide)
  · exact Nat.one_pos

end Binary64

end Montage
