import Montage.Decimal.Shortest

/-!
# Decimal text

Three texts of a number are in use, and each is one value of a small record:

* `NumberStyle.message`: the shortest digits in messages, never an exponent
  (`Decimal.plain`);
* `NumberStyle.json`: the shortest digits in JSON, always with a point or an
  exponent, so that a reader takes the number for a fraction again;
* `Decimal.fixed`: a given number of places, as reports show times.
-/

namespace Montage

/-- How the shortest digits of a number are laid out. -/
structure NumberStyle where
  /-- Which of two equally near decimals is taken. -/
  tie : Tie
  /-- Whether a number whose leading digit has this place is written without an
  exponent. -/
  positional : Int → Bool
  /-- Whether a whole number ends in `.0`. -/
  keepsPoint : Bool

namespace NumberStyle

/-- Messages write out every number in place, and whole numbers bare. -/
def message : NumberStyle := ⟨.up, fun _ => true, false⟩

/-- JSON writes numbers from `1e-5` up to `1e16` in place and the others with
an exponent. -/
def json : NumberStyle := ⟨.toEven, fun place => decide (-5 < place ∧ place ≤ 16), true⟩

/-- Digits with the point at `place`, counted from their left end. -/
def inPlace (style : NumberStyle) (digits : List Char) (place : Int) : List Char :=
  if place ≤ 0 then '0' :: '.' :: List.replicate (-place).toNat '0' ++ digits
  else if (digits.length : Int) ≤ place then
    digits ++ List.replicate (place - digits.length).toNat '0'
      ++ (if style.keepsPoint then ['.', '0'] else [])
  else digits.take place.toNat ++ '.' :: digits.drop place.toNat

/-- One digit before the point and the power of ten behind an `e`. -/
def withExponent (digits : List Char) (place : Int) : List Char :=
  let power := place - 1
  let fraction := digits.drop 1
  digits.take 1 ++ (if fraction.isEmpty then [] else '.' :: fraction)
    ++ 'e' :: (if power < 0 then '-' else '+') :: Nat.toDigits 10 power.natAbs

/-- The text of a finite double. -/
def chars (style : NumberStyle) (x : Binary64) : List Char :=
  let sign := if x.negative then ['-'] else []
  if x.significand = 0 then sign ++ '0' :: (if style.keepsPoint then ['.', '0'] else [])
  else
    let decimal := Decimal.shortest style.tie x
    let digits := Nat.toDigits 10 decimal.digits
    let place := decimal.exponent + digits.length
    sign ++ if style.positional place then style.inPlace digits place
      else withExponent digits place

end NumberStyle

namespace Decimal

/-- The names of the doubles that are no numbers. -/
def nonFinite (x : Float) : String :=
  if x.isNaN then "NaN" else if x < 0 then "-inf" else "inf"

/-- A double in a given style, or its name if it is no number. -/
def inStyle (style : NumberStyle) (x : Float) : String :=
  match Binary64.ofFloat? x with
  | some parts => String.ofList (style.chars parts)
  | none => nonFinite x

/-- A double as messages show it. -/
def plain (x : Float) : String := inStyle .message x

/-- A finite double rounded to `places` decimals, a tie going to the even
digit. -/
def fixedChars (places : Nat) (x : Binary64) : List Char :=
  let (num, den) := x.ratio
  let digits := Nat.toDigits 10 (Tie.toEven.roundDiv (num * Nat.pow 10 places) den)
  let padded := List.replicate (places + 1 - digits.length) '0' ++ digits
  let whole := padded.length - places
  (if x.negative then ['-'] else []) ++ padded.take whole
    ++ (if places = 0 then [] else '.' :: padded.drop whole)

/-- A double as reports show it, with `places` decimals. -/
def fixed (places : Nat) (x : Float) : String :=
  match Binary64.ofFloat? x with
  | some parts => String.ofList (fixedChars places parts)
  | none => nonFinite x

end Decimal

end Montage
