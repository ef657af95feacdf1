import Mathlib.Algebra.Order.Floor.Semiring
import Mathlib.Data.Rat.Floor
import Mathlib.Tactic.Linarith
import Mathlib.Tactic.NormNum
import Montage.Scalar

/-!
# Exact arithmetic

`Exact` is the arithmetic of a timeline without rounding: the rational numbers,
two infinities and NaN.  Infinities and NaN obey the rules of floating point; a
zero has no sign.  Conversions to frame counts round and stop at `frameLimit`,
as they do on doubles.

The lemmas marked `simp` take every operation on finite numbers to the
operation on rationals, so a fact about `Exact` ends as one about `ℚ`.
-/

namespace Montage

/-- A number of exact arithmetic. -/
inductive Exact
  | finite (value : ℚ)
  | infinite (negative : Bool)
  | nan
  deriving DecidableEq

namespace Exact

def neg : Exact → Exact
  | .finite x => .finite (-x)
  | .infinite negative => .infinite (!negative)
  | .nan => .nan

def add : Exact → Exact → Exact
  | .finite x, .finite y => .finite (x + y)
  | .nan, _ | _, .nan => .nan
  | .infinite s, .infinite t => if s = t then .infinite s else .nan
  | .infinite s, .finite _ | .finite _, .infinite s => .infinite s

def mul : Exact → Exact → Exact
  | .finite x, .finite y => .finite (x * y)
  | .nan, _ | _, .nan => .nan
  | .infinite s, .infinite t => .infinite (s != t)
  | .infinite s, .finite x | .finite x, .infinite s =>
    if x = 0 then .nan else .infinite (s != decide (x < 0))

def div : Exact → Exact → Exact
  | .finite x, .finite y =>
    if y = 0 then if x = 0 then .nan else .infinite (decide (x < 0)) else .finite (x / y)
  | .nan, _ | _, .nan | .infinite _, .infinite _ => .nan
  | .finite _, .infinite _ => .finite 0
  | .infinite s, .finite x => .infinite (s != decide (x < 0))

/-- Less than; NaN is not comparable with anything. -/
def lt : Exact → Exact → Bool
  | .finite x, .finite y => decide (x < y)
  | .nan, _ | _, .nan => false
  | .infinite s, .infinite t => s && !t
  | .infinite s, .finite _ => s
  | .finite _, .infinite t => !t

/-- At most; NaN is not comparable with anything. -/
def le : Exact → Exact → Bool
  | .finite x, .finite y => decide (x ≤ y)
  | .nan, _ | _, .nan => false
  | .infinite s, .infinite t => s || !t
  | .infinite s, .finite _ => s
  | .finite _, .infinite t => !t

/-- Equality as arithmetic sees it; NaN is not equal to itself. -/
def beq : Exact → Exact → Bool
  | .nan, _ => false
  | x, y => decide (x = y)

def isFinite : Exact → Bool
  | .finite _ => true
  | _ => false

/-- A conversion to frame counts that is `count` on finite numbers. -/
def frameCount (count : ℚ → ℕ) : Exact → ℕ
  | .finite x => min (count x) frameLimit
  | .infinite negative => if negative then 0 else frameLimit
  | .nan => 0

/-- A decimal as a fraction. -/
def decimal (digits : ℕ) (negativeExponent : Bool) (exponent : ℕ) : ℚ :=
  if negativeExponent then digits / 10 ^ exponent else digits * 10 ^ exponent

instance : Scalar Exact where
  add := add
  sub x y := add x (neg y)
  mul := mul
  div := div
  neg := neg
  lt x y := lt x y
  le x y := le x y
  beq := beq
  ofScientific digits negativeExponent exponent :=
    .finite (decimal digits negativeExponent exponent)
  whole n := .finite n
  isFinite := isFinite
  isNaN x := decide (x = .nan)
  nearest := frameCount fun x => ⌊x + 1 / 2⌋₊
  ceiling := frameCount fun x => ⌈x⌉₊
  decideLT x y := inferInstanceAs (Decidable (lt x y = true))
  decideLE x y := inferInstanceAs (Decidable (le x y = true))

/-! ## Finite numbers -/

@[simp] theorem finite_add_finite (x y : ℚ) : finite x + finite y = finite (x + y) := rfl

@[simp] theorem finite_sub_finite (x y : ℚ) : finite x - finite y = finite (x - y) := by
  rw [sub_eq_add_neg]
  rfl

@[simp] theorem finite_mul_finite (x y : ℚ) : finite x * finite y = finite (x * y) := rfl

theorem finite_div_finite {y : ℚ} (hy : y ≠ 0) (x : ℚ) :
    finite x / finite y = finite (x / y) :=
  if_neg hy

@[simp] theorem neg_finite (x : ℚ) : -finite x = finite (-x) := rfl

@[simp] theorem finite_lt_finite {x y : ℚ} : finite x < finite y ↔ x < y :=
  decide_eq_true_iff

@[simp] theorem finite_le_finite {x y : ℚ} : finite x ≤ finite y ↔ x ≤ y :=
  decide_eq_true_iff

@[simp] theorem whole_eq (n : ℕ) : (Scalar.whole n : Exact) = finite n := rfl

@[simp] theorem ofNat_eq (n : ℕ) : (OfNat.ofNat n : Exact) = finite n := rfl

@[simp] theorem ofScientific_eq (digits : ℕ) (negativeExponent : Bool) (exponent : ℕ) :
    (OfScientific.ofScientific digits negativeExponent exponent : Exact)
      = finite (decimal digits negativeExponent exponent) := rfl

@[simp] theorem isFinite_finite (x : ℚ) : Scalar.isFinite (finite x) = true := rfl

@[simp] theorem atLeast_finite (low x : ℚ) :
    Scalar.atLeast (finite low) (finite x) = finite (max low x) := by
  unfold Scalar.atLeast
  by_cases h : low < x
  · rw [if_pos (finite_lt_finite.mpr h), max_eq_right h.le]
  · rw [if_neg (fun hlt => h (finite_lt_finite.mp hlt)), max_eq_left (not_lt.mp h)]

@[simp] theorem nearest_finite (x : ℚ) :
    Scalar.nearest (finite x) = min ⌊x + 1 / 2⌋₊ frameLimit := rfl

@[simp] theorem ceiling_finite (x : ℚ) :
    Scalar.ceiling (finite x) = min ⌈x⌉₊ frameLimit := rfl

/-! ## Infinities and NaN -/

@[simp] theorem finite_le_infinite {x : ℚ} {s : Bool} : finite x ≤ infinite s ↔ s = false := by
  change (!s) = true ↔ s = false
  cases s <;> decide

@[simp] theorem infinite_le_finite {x : ℚ} {s : Bool} : infinite s ≤ finite x ↔ s = true :=
  Iff.rfl

@[simp] theorem infinite_le_infinite {s t : Bool} :
    infinite s ≤ infinite t ↔ s = true ∨ t = false := by
  change (s || !t) = true ↔ _
  cases s <;> cases t <;> decide

@[simp] theorem not_le_nan (x : Exact) : ¬ x ≤ nan := by
  cases x <;> exact Bool.false_ne_true

@[simp] theorem not_nan_le (x : Exact) : ¬ nan ≤ x := by
  cases x <;> exact Bool.false_ne_true

@[simp] theorem finite_lt_infinite {x : ℚ} {s : Bool} : finite x < infinite s ↔ s = false := by
  change (!s) = true ↔ s = false
  cases s <;> decide

@[simp] theorem not_lt_nan (x : Exact) : ¬ x < nan := by
  cases x <;> exact Bool.false_ne_true

@[simp] theorem not_nan_lt (x : Exact) : ¬ nan < x := by
  cases x <;> exact Bool.false_ne_true

@[simp] theorem infinite_lt_finite {x : ℚ} {s : Bool} : infinite s < finite x ↔ s = true :=
  Iff.rfl

@[simp] theorem add_nan (x : Exact) : x + nan = nan := by
  cases x <;> rfl

@[simp] theorem nan_add (x : Exact) : nan + x = nan := by
  cases x <;> rfl

@[simp] theorem finite_add_infinite (x : ℚ) (s : Bool) : finite x + infinite s = infinite s :=
  rfl

@[simp] theorem infinite_add_finite (x : ℚ) (s : Bool) : infinite s + finite x = infinite s :=
  rfl

@[simp] theorem infinite_add_infinite_not (s : Bool) : infinite (!s) + infinite s = nan := by
  cases s <;> rfl

@[simp] theorem finite_sub_infinite (x : ℚ) (s : Bool) :
    finite x - infinite s = infinite (!s) := rfl

@[simp] theorem infinite_sub_finite (x : ℚ) (s : Bool) :
    infinite s - finite x = infinite s := rfl

@[simp] theorem atLeast_nan (low : Exact) : Scalar.atLeast low nan = low :=
  if_neg (not_lt_nan low)

@[simp] theorem atLeast_infinite (low : ℚ) (s : Bool) :
    Scalar.atLeast (finite low) (infinite s) = if s then finite low else infinite false := by
  cases s <;> rfl

/-- The positive numbers are the positive rationals and one infinity. -/
theorem pos_iff {x : Exact} : 0 < x ↔ (∃ q : ℚ, 0 < q ∧ x = finite q) ∨ x = infinite false := by
  cases x with
  | finite q => simp
  | infinite s => simp
  | nan => simp

/-- A negative number is not positive. -/
theorem not_pos_of_neg {x : Exact} (h : x < 0) : ¬ 0 < x := by
  intro hpos
  rcases pos_iff.mp hpos with ⟨q, hq, rfl⟩ | rfl
  · have hneg : q < 0 := by simpa using h
    linarith
  · exact Bool.false_ne_true (infinite_lt_finite.mp h)

/-- A number is finite when it is a rational. -/
theorem isFinite_iff {x : Exact} : Scalar.isFinite x = true ↔ ∃ q, x = finite q := by
  constructor
  · intro h
    cases x with
    | finite q => exact ⟨q, rfl⟩
    | infinite s => cases h
    | nan => cases h
  · rintro ⟨q, rfl⟩
    rfl

/-- A list of finite numbers is a list of rationals. -/
theorem exists_rationals {xs : List Exact} (h : ∀ x ∈ xs, Scalar.isFinite x = true) :
    ∃ qs : List ℚ, xs = qs.map finite := by
  induction xs with
  | nil => exact ⟨[], rfl⟩
  | cons x xs ih =>
      obtain ⟨q, rfl⟩ := isFinite_iff.mp (h x List.mem_cons_self)
      obtain ⟨qs, rfl⟩ := ih fun y hy => h y (List.mem_cons_of_mem _ hy)
      exact ⟨q :: qs, rfl⟩

/-- Finite numbers are summed up as rationals. -/
theorem sum_finite (qs : List ℚ) : Scalar.sum (qs.map finite) = finite qs.sum := by
  have hfrom : ∀ a : ℚ, (qs.map finite).foldl (· + ·) (finite a) = finite (a + qs.sum) := by
    induction qs with
    | nil => simp
    | cons q rest ih =>
        intro a
        rw [List.map_cons, List.foldl_cons, finite_add_finite, ih, List.sum_cons, add_assoc]
  have hsum := hfrom 0
  rwa [zero_add] at hsum

end Exact

end Montage
