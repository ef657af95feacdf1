import Montage.Proofs.Numbers.Reading

/-!
# The shortest decimal is read back

`Decimal.Interval.of` gives the numbers that are as near to a double as to any other.
Every one of them is brought to that double (`magnitude_of_holds`), and the shortest
decimal is one of them (`shortest_spec`): a grid of seventeen digits has a number in
every interval (`onGrid?_isSome`), so the search never fails.  Therefore reading the
shortest decimal, or any other decimal of the same value, gives the double it was
written for (`toFloat?_of_holds`).
-/

namespace Montage

/-- The nearest whole number, known from how near it is. -/
theorem halfEven_eq {x : ℚ} {n : ℕ} (hlow : n - 1 / 2 ≤ x) (hhigh : x ≤ n + 1 / 2)
    (hends : n % 2 = 0 ∨ n - 1 / 2 < x ∧ x < n + 1 / 2) : halfEven x = n := by
  rcases hhigh.eq_or_lt with hupper | hupper
  · have heven : n % 2 = 0 := hends.resolve_right fun h => h.2.ne hupper
    have hfloor : ⌊x + 1 / 2⌋₊ = n + 1 := by
      rw [hupper, Nat.floor_eq_iff (by positivity)]
      push_cast
      constructor <;> linarith
    have htie : (⌊x + 1 / 2⌋₊ : ℚ) = x + 1 / 2 := by
      rw [hfloor, hupper]
      push_cast
      ring
    rw [halfEven, if_pos htie, hfloor]
    omega
  · have hfloor : ⌊x + 1 / 2⌋₊ = n := by
      rw [Nat.floor_eq_iff (by linarith [(Nat.cast_nonneg n : (0 : ℚ) ≤ n)])]
      constructor <;> linarith
    rw [halfEven, hfloor]
    split
    · rename_i htie
      have heven : n % 2 = 0 := hends.resolve_right fun h => by linarith [h.1]
      omega
    · rfl

theorem two_zpow_eq {k e : ℤ} (n : ℕ) (h : k = e + n) : (2 : ℚ) ^ k = 2 ^ n * 2 ^ e := by
  rw [h, add_comm, zpow_add₀ two_ne_zero, zpow_natCast]

/-- The grid at a number between two powers of two. -/
theorem gridExponent_eq {q : ℚ} {e : ℤ} (hq : 0 < q) (he : -1074 ≤ e)
    (hlow : 2 ^ (e + 52) ≤ q ∨ e = -1074) (hhigh : q < 2 ^ (e + 53)) : gridExponent q = e := by
  have hbelow := (Int.lt_zpow_iff_log_lt (b := 2) one_lt_two hq).mp (by exact_mod_cast hhigh)
  rw [gridExponent]
  rcases hlow with hlow | hlow
  · have habove := (Int.zpow_le_iff_le_log (b := 2) one_lt_two hq).mp (by exact_mod_cast hlow)
    omega
  · omega

/-- A power with an exponent of any sign, as a fraction of whole numbers. -/
theorem pow_toNat_div (b : ℕ) (k : ℤ) :
    ((Nat.pow b k.toNat : ℕ) : ℚ) / (Nat.pow b (-k).toNat : ℕ) = (b : ℚ) ^ k := by
  rw [Nat.pow_eq, Nat.pow_eq]
  rcases le_total 0 k with hnonneg | hneg
  · obtain ⟨n, rfl⟩ := Int.eq_ofNat_of_zero_le hnonneg
    have hzero : (-(n : ℤ)).toNat = 0 := by omega
    rw [hzero, pow_zero, Nat.cast_one, div_one, Int.toNat_natCast, Nat.cast_pow, zpow_natCast]
  · obtain ⟨n, rfl⟩ : ∃ n : ℕ, k = -n := ⟨(-k).toNat, by omega⟩
    have hzero : (-(n : ℤ)).toNat = 0 := by omega
    rw [hzero, pow_zero, neg_neg, Int.toNat_natCast, Nat.cast_one, Nat.cast_pow, zpow_neg,
      zpow_natCast, one_div]

namespace Decimal

/-! ## The interval of a double -/

namespace Interval

/-- The numbers of an interval. -/
structure Holds (i : Interval) (q : ℚ) : Prop where
  low : (i.low : ℚ) / i.den ≤ q
  high : q ≤ (i.high : ℚ) / i.den
  inside : i.closed = true ∨ (i.low : ℚ) / i.den < q ∧ q < (i.high : ℚ) / i.den

/-- The test on whole numbers says whether a rational lies in the interval. -/
theorem contains_iff (i : Interval) {num unit : ℕ} (hden : 0 < i.den) (hunit : 0 < unit) :
    i.contains num unit = true ↔ i.Holds (num / (i.den * unit)) := by
  have hden' : (0 : ℚ) < i.den := Nat.cast_pos.mpr hden
  have hunit' : (0 : ℚ) < unit := Nat.cast_pos.mpr hunit
  have hleft : ∀ n : ℕ, (n : ℚ) / i.den = (n * unit : ℕ) / (i.den * unit) := by
    intro n
    rw [Nat.cast_mul, mul_div_mul_right _ _ hunit'.ne']
  have hle : ∀ a b : ℕ, (a : ℚ) / (i.den * unit) ≤ b / (i.den * unit) ↔ a ≤ b := by
    intro a b
    rw [div_le_div_iff_of_pos_right (mul_pos hden' hunit'), Nat.cast_le]
  have hlt : ∀ a b : ℕ, (a : ℚ) / (i.den * unit) < b / (i.den * unit) ↔ a < b := by
    intro a b
    rw [div_lt_div_iff_of_pos_right (mul_pos hden' hunit'), Nat.cast_lt]
  have hholds : i.Holds (num / (i.den * unit)) ↔ i.low * unit ≤ num ∧ num ≤ i.high * unit ∧
      (i.closed = true ∨ i.low * unit < num ∧ num < i.high * unit) := by
    rw [← hle, ← hle, ← hlt, ← hlt, ← hleft, ← hleft]
    exact ⟨fun h => ⟨h.low, h.high, h.inside⟩, fun h => ⟨h.1, h.2.1, h.2.2⟩⟩
  rw [hholds, contains]
  cases i.closed with
  | true => simp
  | false =>
      simp only [Bool.false_eq_true, ↓reduceIte, Bool.and_eq_true, decide_eq_true_eq, false_or]
      omega

variable {p : Binary64}

theorem of_den_pos (p : Binary64) : 0 < (Interval.of p).den := Nat.pow_pos two_pos

/-- How far below a double its interval reaches, in quarters of the last place. -/
def below (p : Binary64) : ℕ := if p.narrowBelow then 1 else 2

/-- The middle of the interval is the magnitude of the double. -/
theorem of_value (p : Binary64) : ((Interval.of p).value : ℚ) / (Interval.of p).den = p.value := by
  have hscale := pow_toNat_div 2 (p.exponent - 2)
  have hfour : (4 : ℚ) = 2 ^ (2 : ℤ) := by norm_num
  simp only [Interval.of]
  rw [Nat.cast_mul, mul_div_assoc, hscale, Binary64.value, Nat.cast_mul, Nat.cast_ofNat, hfour,
    Nat.cast_ofNat, mul_comm ((2 : ℚ) ^ (2 : ℤ)), mul_assoc, ← zpow_add₀ two_ne_zero]
  congr 2
  omega

/-- Its lower end is half a step below, or a quarter where the grid becomes finer. -/
theorem of_low (hpos : 0 < p.significand) : ((Interval.of p).low : ℚ) / (Interval.of p).den
    = (p.significand - below p / 4) * 2 ^ p.exponent := by
  have hbelow : below p ≤ 4 * p.significand := by
    unfold below
    split <;> omega
  have hscale := pow_toNat_div 2 (p.exponent - 2)
  have hsplit := two_zpow_eq (k := p.exponent) (e := p.exponent - 2) 2 (by omega)
  simp only [Interval.of]
  change (((4 * p.significand - below p) * Nat.pow 2 (p.exponent - 2).toNat : ℕ) : ℚ) / _ = _
  rw [Nat.cast_mul, mul_div_assoc, hscale, Nat.cast_sub hbelow, hsplit]
  push_cast
  ring

/-- Its upper end is half a step above. -/
theorem of_high (p : Binary64) : ((Interval.of p).high : ℚ) / (Interval.of p).den
    = (p.significand + 1 / 2) * 2 ^ p.exponent := by
  have hscale := pow_toNat_div 2 (p.exponent - 2)
  have hsplit := two_zpow_eq (k := p.exponent) (e := p.exponent - 2) 2 (by omega)
  simp only [Interval.of]
  rw [Nat.cast_mul, mul_div_assoc, hscale, hsplit]
  push_cast
  ring

/-- The ends of the interval in steps of the last binary place. -/
theorem holds_of_iff (hpos : 0 < p.significand) {q : ℚ} : (Interval.of p).Holds q ↔
    (p.significand - below p / 4) * 2 ^ p.exponent ≤ q ∧
      q ≤ (p.significand + 1 / 2) * 2 ^ p.exponent ∧
      (p.significand % 2 = 0 ∨ (p.significand - below p / 4) * 2 ^ p.exponent < q ∧
        q < (p.significand + 1 / 2) * 2 ^ p.exponent) := by
  have hclosed : (Interval.of p).closed = true ↔ p.significand % 2 = 0 := beq_iff_eq
  rw [← of_low hpos, ← of_high p, ← hclosed]
  exact ⟨fun h => ⟨h.low, h.high, h.inside⟩, fun h => ⟨h.1, h.2.1, h.2.2⟩⟩

/-- The step below a double is no larger than the one above. -/
theorem below_le (p : Binary64) : below p ≤ 2 := by
  unfold below
  split <;> omega

/-- The interval begins in the upper half of the last place before the double, or its
double is the least one on its grid. -/
theorem below_eq_one_iff (p : Binary64) :
    below p = 1 ↔ p.significand = 2 ^ 52 ∧ -1074 < p.exponent := by
  have hnarrow : p.narrowBelow = true ↔ p.significand = 2 ^ 52 ∧ -1074 < p.exponent := by
    simp [Binary64.narrowBelow]
  rw [← hnarrow, below]
  cases p.narrowBelow <;> simp

/-- The interval of a double that is not zero stays clear of zero. -/
theorem Holds.pos (hpos : 0 < p.significand) {q : ℚ} (h : (Interval.of p).Holds q) :
    2 ^ (p.exponent - 1) ≤ q := by
  have hlow := ((holds_of_iff hpos).mp h).1
  have hone : (1 : ℚ) ≤ p.significand := by exact_mod_cast hpos
  have hbelow : (below p : ℚ) ≤ 2 := by exact_mod_cast below_le p
  refine le_trans ?_ hlow
  rw [zpow_sub_one₀ two_ne_zero, mul_comm]
  exact mul_le_mul_of_nonneg_right (by linarith) (two_zpow_pos _).le

/-- A number of the interval that lies on the grid of the double is rounded to it. -/
theorem Holds.gridSteps_eq (hpos : 0 < p.significand) {q : ℚ} (h : (Interval.of p).Holds q)
    (hgrid : gridExponent q = p.exponent) : gridSteps q = p.significand := by
  obtain ⟨hlow, hhigh, hends⟩ := (holds_of_iff hpos).mp h
  have hstep := two_zpow_pos p.exponent
  have hbelow : (below p : ℚ) ≤ 2 := by exact_mod_cast below_le p
  rw [← le_div_iff₀ hstep] at hlow
  rw [← div_le_iff₀ hstep] at hhigh
  rw [← lt_div_iff₀ hstep, ← div_lt_iff₀ hstep] at hends
  rw [gridSteps, hgrid]
  exact halfEven_eq (by linarith) hhigh (hends.imp_right fun h => ⟨by linarith [h.1], h.2⟩)

/-- Below a power of two the grid is finer; a number of the interval that lies there is
rounded up to the power of two. -/
theorem Holds.toGrid_of_lt (hp : p.Settled) (hpos : 0 < p.significand) {q : ℚ}
    (h : (Interval.of p).Holds q) (hlt : q < 2 ^ (p.exponent + 52)) (hfine : -1074 < p.exponent) :
    toGrid q = p.value := by
  obtain ⟨hlow, -, -⟩ := (holds_of_iff hpos).mp h
  have hstep := two_zpow_pos p.exponent
  have hfull : (2 : ℚ) ^ 52 ≤ p.significand := by
    exact_mod_cast hp.full.resolve_right (by omega)
  have hpower : (2 : ℚ) ^ (p.exponent + 52) = 2 ^ 52 * 2 ^ p.exponent := two_zpow_eq 52 rfl
  have hbelow : (below p : ℚ) ≤ 2 := by exact_mod_cast below_le p
  -- The double is the power of two itself, or the interval would begin above it.
  have hsignificand : p.significand = 2 ^ 52 := by
    by_contra hne
    have habove : (2 : ℚ) ^ 52 + 1 ≤ p.significand := by
      exact_mod_cast (lt_of_le_of_ne (by exact_mod_cast hfull) (Ne.symm hne) :
        2 ^ 52 < p.significand)
    have hless := hlow.trans_lt hlt
    rw [hpower] at hless
    linarith [lt_of_mul_lt_mul_right hless hstep.le]
  have hone : below p = 1 := (below_eq_one_iff p).mpr ⟨hsignificand, hfine⟩
  have hhalf := two_zpow_eq (k := p.exponent) (e := p.exponent - 1) 1 (by omega)
  rw [pow_one] at hhalf
  have hfiner := two_zpow_pos (p.exponent - 1)
  have hlow' : ((2 ^ 53 : ℕ) - 1 / 2 : ℚ) * 2 ^ (p.exponent - 1) ≤ q := by
    rw [hsignificand, hone, hhalf] at hlow
    push_cast at hlow ⊢
    linarith
  have hhigh' : q < (2 ^ 53 : ℕ) * 2 ^ (p.exponent - 1) := by
    rw [hpower, hhalf] at hlt
    push_cast
    linarith
  have hgrid : gridExponent q = p.exponent - 1 := by
    refine gridExponent_eq ((two_zpow_pos _).trans_le (h.pos hpos)) (by omega) (Or.inl ?_) ?_
    · have hsplit : (2 : ℚ) ^ (p.exponent - 1 + 52) = 2 ^ 52 * 2 ^ (p.exponent - 1) :=
        two_zpow_eq 52 rfl
      rw [hsplit]
      refine le_trans (mul_le_mul_of_nonneg_right ?_ hfiner.le) hlow'
      norm_num
    · have hsplit : p.exponent - 1 + 53 = p.exponent + 52 := by omega
      rwa [hsplit]
  have hsteps : gridSteps q = 2 ^ 53 := by
    rw [gridSteps, hgrid]
    refine halfEven_eq ?_ ?_ (Or.inl (by norm_num))
    · exact (le_div_iff₀ hfiner).mpr hlow'
    · have := (div_le_iff₀ hfiner).mpr hhigh'.le
      linarith
  rw [toGrid, hsteps, hgrid, Binary64.value, hsignificand, hhalf]
  push_cast
  ring

/-- Every number of the interval is brought to the double. -/
theorem Holds.toGrid_eq (hp : p.Settled) (hpos : 0 < p.significand) {q : ℚ}
    (h : (Interval.of p).Holds q) : toGrid q = p.value := by
  have hq : 0 < q := (two_zpow_pos _).trans_le (h.pos hpos)
  by_cases hfine : q < 2 ^ (p.exponent + 52) ∧ -1074 < p.exponent
  · exact h.toGrid_of_lt hp hpos hfine.1 hfine.2
  · have hhigh : q < 2 ^ (p.exponent + 53) := by
      obtain ⟨-, hhigh, -⟩ := (holds_of_iff hpos).mp h
      have hlt : (p.significand : ℚ) + 1 ≤ 2 ^ 53 := by exact_mod_cast hp.lt
      have hsplit : (2 : ℚ) ^ (p.exponent + 53) = 2 ^ 53 * 2 ^ p.exponent := two_zpow_eq 53 rfl
      rw [hsplit]
      exact hhigh.trans_lt (mul_lt_mul_of_pos_right (by linarith) (two_zpow_pos _))
    have hlow : 2 ^ (p.exponent + 52) ≤ q ∨ p.exponent = -1074 := by
      rcases not_and_or.mp hfine with hge | hge
      · exact Or.inl (not_lt.mp hge)
      · exact Or.inr (by have := hp.ge; omega)
    have hgrid := gridExponent_eq hq hp.ge hlow hhigh
    rw [toGrid, h.gridSteps_eq hpos hgrid, hgrid, Binary64.value]

/-- Every number of the interval is rounded to the double. -/
theorem magnitude_of_holds (hp : p.Settled) (hpos : 0 < p.significand) {q : ℚ}
    (h : (Interval.of p).Holds q) : Double.magnitude q = .finite p.value := by
  have hfits : toGrid q < 2 ^ 1024 := by
    rw [h.toGrid_eq hp hpos]
    exact (hp.canonical hpos).lt_two_pow hp.le
  rw [Double.magnitude, if_pos hfits, h.toGrid_eq hp hpos]

end Interval

/-! ## The search -/

/-- The place of the leading digit of a fraction. -/
theorem leadingPlace_bounds {num den : ℕ} (hnum : 0 < num) (hden : 0 < den) :
    (10 : ℚ) ^ (leadingPlace num den - 1) ≤ num / den ∧
      (num : ℚ) / den < 10 ^ leadingPlace num den := by
  have hden' : (0 : ℚ) < den := Nat.cast_pos.mpr hden
  have hnumLow : (10 : ℚ) ^ (digitCount num - 1) ≤ num := by
    exact_mod_cast pow_digitCount_le hnum
  have hnumHigh : (num : ℚ) < 10 ^ digitCount num := by exact_mod_cast lt_pow_digitCount num
  have hdenLow : (10 : ℚ) ^ (digitCount den - 1) ≤ den := by
    exact_mod_cast pow_digitCount_le hden
  have hdenHigh : (den : ℚ) < 10 ^ digitCount den := by exact_mod_cast lt_pow_digitCount den
  have hnumCount : 0 < digitCount num := Nat.length_toDigits_pos
  have hdenCount : 0 < digitCount den := Nat.length_toDigits_pos
  -- the numbers of digits fix the place up to one, and one comparison decides
  obtain ⟨guess, hguess⟩ : ∃ guess : ℤ, (digitCount num : ℤ) - digitCount den = guess := ⟨_, rfl⟩
  have hcompare : den * Nat.pow 10 guess.toNat ≤ num * Nat.pow 10 (-guess).toNat
      ↔ (10 : ℚ) ^ guess ≤ num / den := by
    have hpower := pow_toNat_div 10 guess
    have hunit : (0 : ℚ) < (Nat.pow 10 (-guess).toNat : ℕ) :=
      Nat.cast_pos.mpr (Nat.pow_pos (by norm_num))
    rw [Nat.cast_ofNat] at hpower
    rw [← hpower, div_le_div_iff₀ hunit hden', mul_comm den]
    exact_mod_cast Iff.rfl
  have hplace : leadingPlace num den
      = if den * Nat.pow 10 guess.toNat ≤ num * Nat.pow 10 (-guess).toNat then guess + 1
        else guess := by
    rw [← hguess]
    rfl
  rw [hplace]
  by_cases h : (10 : ℚ) ^ guess ≤ num / den
  · rw [if_pos (hcompare.mpr h), add_sub_cancel_right]
    refine ⟨h, ?_⟩
    have hsplit : guess + 1 = (digitCount num : ℤ) - ((digitCount den - 1 : ℕ) : ℤ) := by omega
    rw [hsplit, zpow_sub₀ (by norm_num), zpow_natCast, zpow_natCast]
    exact div_lt_div₀ hnumHigh hdenLow (by positivity) (by positivity)
  · rw [if_neg (fun hle => h (hcompare.mp hle))]
    refine ⟨?_, not_le.mp h⟩
    have hsplit : guess - 1 = ((digitCount num - 1 : ℕ) : ℤ) - (digitCount den : ℤ) := by omega
    rw [hsplit, zpow_sub₀ (by norm_num), zpow_natCast, zpow_natCast]
    exact div_le_div₀ (by positivity) hnumLow hden' hdenHigh.le

/-- Of two candidates one is taken. -/
theorem Tie.nearer_cases (tie : Tie) (low num den : ℕ) :
    tie.nearer low num den = low ∨ tie.nearer low num den = low + 1 := by
  unfold Tie.nearer
  cases tie <;> grind

namespace Interval

variable {i : Interval} {p : Binary64}

/-- A candidate is accepted when its value lies in the interval. -/
theorem contains_grid (hden : 0 < i.den) (n : ℕ) (exponent : ℤ) :
    i.contains (n * (i.den * Nat.pow 10 exponent.toNat)) (Nat.pow 10 (-exponent).toNat) = true
      ↔ i.Holds (Decimal.value ⟨n, exponent⟩) := by
  have hunit : 0 < Nat.pow 10 (-exponent).toNat := Nat.pow_pos (by norm_num)
  have hpower := pow_toNat_div 10 exponent
  have hden' : (i.den : ℚ) ≠ 0 := Nat.cast_ne_zero.mpr hden.ne'
  have hvalue : ((n * (i.den * Nat.pow 10 exponent.toNat) : ℕ) : ℚ)
      / (i.den * (Nat.pow 10 (-exponent).toNat : ℕ)) = Decimal.value ⟨n, exponent⟩ := by
    rw [Nat.cast_ofNat] at hpower
    rw [Decimal.value, ← hpower, Nat.cast_mul, Nat.cast_mul, mul_left_comm,
      mul_div_mul_left _ _ hden', mul_div_assoc]
  rw [contains_iff i hden hunit, hvalue]

/-- What a grid gives lies in the interval, on the grid. -/
theorem holds_of_onGrid? (hden : 0 < i.den) {tie : Tie} {exponent : ℤ} {d : Decimal}
    (h : i.onGrid? tie exponent = some d) : i.Holds d.value ∧ d.exponent = exponent := by
  obtain ⟨low, hlow⟩ : ∃ low, i.value * Nat.pow 10 (-exponent).toNat
      / (i.den * Nat.pow 10 exponent.toNat) = low := ⟨_, rfl⟩
  simp only [onGrid?, hlow] at h
  split at h
  · cases h
  · rename_i hleft _
    cases h
    exact ⟨(contains_grid hden low exponent).mp hleft, rfl⟩
  · rename_i _ hright
    cases h
    exact ⟨(contains_grid hden (low + 1) exponent).mp hright, rfl⟩
  · rename_i hleft hright
    cases h
    refine ⟨?_, rfl⟩
    rcases Tie.nearer_cases tie low (i.value * Nat.pow 10 (-exponent).toNat)
      (i.den * Nat.pow 10 exponent.toNat) with heq | heq
    · rw [heq]
      exact (contains_grid hden low exponent).mp hleft
    · rw [heq]
      exact (contains_grid hden (low + 1) exponent).mp hright

/-- A grid whose step is shorter than the interval on both sides of the double has a number
in the interval. -/
theorem onGrid?_isSome (hden : 0 < i.den) (tie : Tie) {exponent : ℤ}
    (hlow : (i.low : ℚ) / i.den < i.value / i.den - 10 ^ exponent / 2)
    (hhigh : (i.value : ℚ) / i.den + 10 ^ exponent / 2 < i.high / i.den) :
    (i.onGrid? tie exponent).isSome = true := by
  obtain ⟨low, hlow'⟩ : ∃ low, i.value * Nat.pow 10 (-exponent).toNat
      / (i.den * Nat.pow 10 exponent.toNat) = low := ⟨_, rfl⟩
  have hden' : (0 : ℚ) < i.den := Nat.cast_pos.mpr hden
  have hpower : (0 : ℚ) < 10 ^ exponent := ten_zpow_pos exponent
  have hfloor : ⌊(i.value : ℚ) / i.den / 10 ^ exponent⌋₊ = low := by
    have hsplit := pow_toNat_div 10 exponent
    rw [Nat.cast_ofNat] at hsplit
    rw [← hlow', ← Nat.floor_div_eq_div (K := ℚ), ← hsplit, Nat.cast_mul, Nat.cast_mul,
      div_div_div_eq]
  have hbelow : (low : ℚ) * 10 ^ exponent ≤ i.value / i.den := by
    rw [← le_div_iff₀ hpower, ← hfloor]
    exact Nat.floor_le (by positivity)
  have habove : (i.value : ℚ) / i.den < (low + 1) * 10 ^ exponent := by
    rw [← div_lt_iff₀ hpower, ← hfloor]
    exact Nat.lt_floor_add_one _
  simp only [onGrid?, hlow']
  split
  · -- one of the two neighbours on the grid is within half a step of the number
    rename_i hleft hright
    exfalso
    rcases le_or_gt ((i.value : ℚ) / i.den - 10 ^ exponent / 2) (low * 10 ^ exponent)
      with hnear | hfar
    · have hholds : i.Holds (Decimal.value ⟨low, exponent⟩) := by
        refine ⟨?_, ?_, Or.inr ⟨?_, ?_⟩⟩ <;> simp only [Decimal.value] <;> linarith
      rw [(contains_grid hden low exponent).mpr hholds] at hleft
      cases hleft
    · have hholds : i.Holds (Decimal.value ⟨low + 1, exponent⟩) := by
        refine ⟨?_, ?_, Or.inr ⟨?_, ?_⟩⟩ <;> simp only [Decimal.value] <;> push_cast <;> linarith
      rw [(contains_grid hden (low + 1) exponent).mpr hholds] at hright
      cases hright
  all_goals rfl

/-- Seventeen digits always suffice. -/
theorem onGrid?_of_isSome (hp : p.Settled) (hpos : 0 < p.significand) (tie : Tie) {place : ℤ}
    (hplace : (10 : ℚ) ^ (place - 1) ≤ p.value) :
    ((Interval.of p).onGrid? tie (place - 17)).isSome = true := by
  have hstep := two_zpow_pos p.exponent
  have hpower : (10 : ℚ) ^ (place - 17) * 10 ^ 16 ≤ p.value := by
    refine le_trans (le_of_eq ?_) hplace
    rw [← zpow_natCast, ← zpow_add₀ (by norm_num)]
    congr 1
    push_cast
    omega
  have hlt : (p.significand : ℚ) + 1 ≤ 2 ^ 53 := by exact_mod_cast hp.lt
  -- Half a step of the grid against the distance to the end of the interval below.
  have hbelow : (10 : ℚ) ^ (place - 17) / 2 < below p / 4 * 2 ^ p.exponent := by
    rw [Binary64.value] at hpower
    rcases Nat.lt_or_ge (below p) 2 with hone | htwo
    · have hbelow : below p = 1 := by
        unfold below at hone ⊢
        split at hone
        · rename_i hnarrow
          rw [if_pos hnarrow]
        · omega
      have hsignificand := ((below_eq_one_iff p).mp hbelow).1
      rw [hsignificand] at hpower
      rw [hbelow]
      push_cast at hpower ⊢
      linarith
    · have hbelow : below p = 2 := le_antisymm (below_le p) htwo
      rw [hbelow]
      push_cast
      have hwide := mul_le_mul_of_nonneg_right hlt hstep.le
      linarith
  have hle : (below p : ℚ) ≤ 2 := by exact_mod_cast below_le p
  have hhalf := mul_le_mul_of_nonneg_right hle hstep.le
  refine onGrid?_isSome (of_den_pos p) tie ?_ ?_
  · rw [of_low hpos, of_value, Binary64.value]
    linarith
  · rw [of_high, of_value, Binary64.value]
    linarith

/-- Three binary places are less than one decimal place. -/
theorem two_zpow_le_ten_zpow {n : ℕ} {e : ℤ} (h : e ≤ 3 * n) : (2 : ℚ) ^ e ≤ 10 ^ (n : ℤ) := by
  calc (2 : ℚ) ^ e ≤ 2 ^ (3 * n : ℤ) := zpow_le_zpow_right₀ one_le_two h
    _ = (2 ^ (3 : ℤ)) ^ (n : ℤ) := zpow_mul 2 3 n
    _ = 8 ^ n := by rw [zpow_natCast]; norm_num
    _ ≤ 10 ^ n := pow_le_pow_left₀ (by norm_num) (by norm_num) n
    _ = 10 ^ (n : ℤ) := (zpow_natCast 10 n).symm

/-- So it is behind the point. -/
theorem ten_zpow_le_two_zpow {n : ℕ} {e : ℤ} (h : -(3 * n) ≤ e) :
    (10 : ℚ) ^ (-n : ℤ) ≤ 2 ^ e := by
  have hinverse := two_zpow_le_ten_zpow (n := n) (e := -e) (by omega)
  rw [zpow_neg] at hinverse ⊢
  exact inv_le_of_inv_le₀ (two_zpow_pos e) hinverse

/-- The numbers of an interval are of a size that decimals are read at. -/
theorem Holds.bounds (hp : p.Settled) (hpos : 0 < p.significand) {q : ℚ}
    (h : (Interval.of p).Holds q) : (10 : ℚ) ^ (-400 : ℤ) ≤ q ∧ q < 10 ^ (399 : ℤ) := by
  constructor
  · have hstart : -(3 * (400 : ℕ)) ≤ p.exponent - 1 := by
      have := hp.ge
      omega
    exact (ten_zpow_le_two_zpow hstart).trans (h.pos hpos)
  · have hhigh := ((holds_of_iff hpos).mp h).2.1
    have hlt : (p.significand : ℚ) + 1 ≤ 2 ^ 53 := by exact_mod_cast hp.lt
    have hexponent : p.exponent + 53 ≤ 3 * (399 : ℕ) := by
      have := hp.le
      omega
    refine lt_of_lt_of_le ?_ (two_zpow_le_ten_zpow hexponent)
    rw [add_comm p.exponent, zpow_add₀ two_ne_zero]
    refine hhigh.trans_lt (mul_lt_mul_of_pos_right ?_ (two_zpow_pos _))
    norm_num at hlt ⊢
    linarith

end Interval

/-- A decimal has digits when it is positive. -/
theorem digits_pos_iff (d : Decimal) : 0 < d.digits ↔ 0 < d.value := by
  refine ⟨value_pos, fun h => ?_⟩
  rw [Nat.pos_iff_ne_zero]
  intro hzero
  rw [value, hzero, Nat.cast_zero, zero_mul] at h
  exact h.false

/-- Zeros at the end are dropped without a change of value. -/
theorem value_dropZeros (fuel : ℕ) (d : Decimal) : (dropZeros fuel d).value = d.value := by
  induction fuel generalizing d with
  | zero => rfl
  | succ fuel ih =>
      rw [dropZeros]
      split
      · rename_i hzero
        obtain ⟨k, hk⟩ : ∃ k, d.digits = k * 10 := ⟨d.digits / 10, by omega⟩
        rw [ih, value, value, hk, Nat.mul_div_cancel _ (by norm_num), zpow_add_one₀ (by norm_num)]
        push_cast
        ring
      · rfl

/-- The exponent grows by the zeros that are dropped. -/
theorem exponent_le_dropZeros (fuel : ℕ) (d : Decimal) :
    d.exponent ≤ (dropZeros fuel d).exponent := by
  induction fuel generalizing d with
  | zero => exact le_rfl
  | succ fuel ih =>
      rw [dropZeros]
      split
      · exact (Int.le_add_one le_rfl).trans (ih _)
      · exact le_rfl

/-! ## Reading the shortest decimal -/

section

variable {p : Binary64} (hp : p.Settled) (hpos : 0 < p.significand)

include hp hpos

/-- The shortest decimal lies in the interval of its double, and its last digit does not
stand too far behind the point. -/
theorem shortest_spec (tie : Tie) :
    (Interval.of p).Holds (shortest tie p).value ∧ -400 ≤ (shortest tie p).exponent := by
  have hden := Interval.of_den_pos p
  have hvalue := Interval.of_value p
  have hpvalue := Binary64.value_pos hpos
  have hnum : 0 < (Interval.of p).value := by
    rw [Nat.pos_iff_ne_zero]
    intro hzero
    rw [hzero, Nat.cast_zero, zero_div] at hvalue
    exact hpvalue.ne hvalue
  obtain ⟨hlow, hhigh⟩ := leadingPlace_bounds hnum hden
  obtain ⟨place, hplace⟩ :
      ∃ place, leadingPlace (Interval.of p).value (Interval.of p).den = place := ⟨_, rfl⟩
  rw [hplace, hvalue] at hlow hhigh
  have hfar : -360 ≤ place := by
    have hstart : (2 : ℚ) ^ (-1074 : ℤ) ≤ p.value := by
      have hone : (1 : ℚ) ≤ p.significand := by exact_mod_cast hpos
      calc (2 : ℚ) ^ (-1074 : ℤ) ≤ 2 ^ p.exponent := zpow_le_zpow_right₀ one_le_two hp.ge
        _ = 1 * 2 ^ p.exponent := (one_mul _).symm
        _ ≤ p.value := mul_le_mul_of_nonneg_right hone (two_zpow_pos _).le
    have hten := (Interval.ten_zpow_le_two_zpow (n := 360) (by norm_num)).trans hstart
    exact ((zpow_lt_zpow_iff_right₀ (by norm_num)).mp (hten.trans_lt hhigh)).le
  -- Some grid has a number, the one of seventeen digits at the latest.
  have hsome : ((List.range' 1 17).findSome? fun (n : ℕ) =>
      (Interval.of p).onGrid? tie (place - n)).isSome = true := by
    rw [List.findSome?_isSome_iff]
    exact ⟨17, by decide, Interval.onGrid?_of_isSome hp hpos tie hlow⟩
  obtain ⟨d, hd⟩ := Option.isSome_iff_exists.mp hsome
  have hshortest : shortest tie p = dropZeros (digitCount d.digits) d := by
    simp only [shortest, hplace, hd]
  obtain ⟨n, hn, hgrid⟩ := List.exists_of_findSome?_eq_some hd
  obtain ⟨hholds, hexponent⟩ := Interval.holds_of_onGrid? hden hgrid
  have hdigits : n < 18 := (List.mem_range'_1.mp hn).2
  rw [hshortest, value_dropZeros]
  refine ⟨hholds, le_trans ?_ (exponent_le_dropZeros _ d)⟩
  omega

/-- A decimal of the interval is read as the double. -/
theorem toFloat?_of_holds {d : Decimal} (hexponent : d.exponent.natAbs ≤ 2048)
    (h : (Interval.of p).Holds d.value) :
    ∃ x, d.toFloat? = some x ∧ Double.exact x = .finite p.value := by
  have hdigits : 0 < d.digits :=
    (digits_pos_iff d).mpr ((two_zpow_pos _).trans_le (h.pos hpos))
  obtain ⟨hlow, hhigh⟩ := h.bounds hp hpos
  exact exact_of_toFloat? hdigits hexponent hlow hhigh (Interval.magnitude_of_holds hp hpos h)

/-- The last digit of the shortest decimal is at no place that doubles do not have. -/
theorem shortest_exponent_bounds (tie : Tie) :
    -400 ≤ (shortest tie p).exponent ∧ (shortest tie p).exponent < 400 := by
  obtain ⟨hholds, hlow⟩ := shortest_spec hp hpos tie
  refine ⟨hlow, ?_⟩
  have hdigits : 0 < (shortest tie p).digits :=
    (digits_pos_iff _).mpr ((two_zpow_pos _).trans_le (hholds.pos hpos))
  have hcount : 0 < digitCount (shortest tie p).digits := Nat.length_toDigits_pos
  have hbelow := (value_bounds hdigits).1.trans_lt (hholds.bounds hp hpos).2
  have := (zpow_lt_zpow_iff_right₀ (by norm_num)).mp hbelow
  omega

end

end Decimal

end Montage
