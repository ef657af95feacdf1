import Montage.Decimal.Binary64

/-!
# The shortest decimal of a double, and the double of a decimal

Every real number between the two midpoints around a double is read back as
that double, and the midpoints themselves are when the significand is even.
The shortest decimal is a number of that interval with the fewest digits; among
those with as many digits it is the nearest to the double.

For a given number of digits only two decimals can be nearest: the double
rounded down and the next one.  So seventeen grids are tried, coarse to fine,
in exact arithmetic on whole numbers, and the first grid with a hit wins.

The other way, `Decimal.toFloat?` is the double nearest to a decimal.  Decimals
beyond the largest double have none, and decimals too small to be told from zero
give zero.
-/

namespace Montage

/-- The number `digits * 10 ^ exponent`. -/
structure Decimal where
  digits : Nat
  exponent : Int
  deriving DecidableEq

/-- What happens to a number that lies exactly between two candidates. -/
inductive Tie
  | up
  | toEven
  deriving DecidableEq

/-- `low` or `low + 1`, whichever is nearer to `num / den`, which lies between
the two. -/
def Tie.nearer (tie : Tie) (low num den : Nat) : Nat :=
  let middle := (2 * low + 1) * den
  if 2 * num < middle then low
  else if middle < 2 * num then low + 1
  else match tie with
    | .up => low + 1
    | .toEven => if low % 2 = 0 then low else low + 1

/-- The whole number nearest to `num / den`. -/
def Tie.roundDiv (tie : Tie) (num den : Nat) : Nat := tie.nearer (num / den) num den

namespace Decimal

/-- How many decimal digits a whole number is written with. -/
def digitCount (n : Nat) : Nat := (Nat.toDigits 10 n).length

/-- The place of the leading digit: the `p` with
`10 ^ (p - 1) ≤ num / den < 10 ^ p`, for a fraction that is not zero. -/
def leadingPlace (num den : Nat) : Int :=
  let guess : Int := (digitCount num : Int) - digitCount den
  if den * Nat.pow 10 guess.toNat ≤ num * Nat.pow 10 (-guess).toNat then guess + 1 else guess

/-- The same number without zeros at the end of its digits; `fuel` bounds how
many are dropped. -/
def dropZeros : Nat → Decimal → Decimal
  | 0, d => d
  | fuel + 1, d =>
    if d.digits ≠ 0 ∧ d.digits % 10 = 0 then dropZeros fuel ⟨d.digits / 10, d.exponent + 1⟩
    else d

/-- The numbers that are read back as one double, as fractions over a common
denominator, and the double itself. -/
structure Interval where
  low : Nat
  value : Nat
  high : Nat
  den : Nat
  closed : Bool

/-- The interval of a double: half the distance to each neighbour.  All
distances are whole numbers of quarters of the last binary place. -/
def Interval.of (x : Binary64) : Interval :=
  let quarter : Int := x.exponent - 2
  let scale := Nat.pow 2 quarter.toNat
  let middle := 4 * x.significand
  { low := (middle - if x.narrowBelow then 1 else 2) * scale
    value := middle * scale
    high := (middle + 2) * scale
    den := Nat.pow 2 (-quarter).toNat
    closed := x.significand % 2 == 0 }

/-- Whether `num / (den * unit)` lies in the interval, `unit` refining its
denominator. -/
def Interval.contains (i : Interval) (num unit : Nat) : Bool :=
  if i.closed then decide (i.low * unit ≤ num) && decide (num ≤ i.high * unit)
  else decide (i.low * unit < num) && decide (num < i.high * unit)

/-- The best decimal of the interval whose last digit stands for
`10 ^ exponent`, if the interval holds one. -/
def Interval.onGrid? (i : Interval) (tie : Tie) (exponent : Int) : Option Decimal :=
  let unit := Nat.pow 10 (-exponent).toNat
  let step := i.den * Nat.pow 10 exponent.toNat
  let low := i.value * unit / step
  match i.contains (low * step) unit, i.contains ((low + 1) * step) unit with
  | false, false => none
  | true, false => some ⟨low, exponent⟩
  | false, true => some ⟨low + 1, exponent⟩
  | true, true => some ⟨tie.nearer low (i.value * unit) step, exponent⟩

/-- The shortest decimal of a double that is not zero, without its sign. -/
def shortest (tie : Tie) (x : Binary64) : Decimal :=
  let i := Interval.of x
  let place := leadingPlace i.value i.den
  match (List.range' 1 17).findSome? fun (n : Nat) => i.onGrid? tie (place - n) with
  | some d => dropZeros (digitCount d.digits) d
  | none => ⟨0, 0⟩

/-! ## The double of a decimal -/

/-- The double nearest to a decimal, if there is a finite one.  That numbers in
JSON are read as the nearest double is taken for granted: a reader that rounds
a long decimal in two steps can end at its neighbour.

Decimals with a leading digit far outside the range of doubles are settled
without computing their powers of ten. -/
def toFloat? (d : Decimal) : Option Float :=
  let place : Int := d.exponent + digitCount d.digits
  if d.digits = 0 ∨ place < -400 then some 0
  else if 400 < place then none
  else
    let x := Float.ofScientific d.digits (decide (d.exponent < 0)) d.exponent.natAbs
    if x.isFinite then some x else none

end Decimal

end Montage
