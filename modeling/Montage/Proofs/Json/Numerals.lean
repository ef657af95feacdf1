import Montage.Json.Printer
import Montage.Json.Token
import Montage.Proofs.Numbers.Shortest

/-!
# Numbers as text

The text of a number is its `Spelling`: digits before the point, digits behind it and a
power of ten.  Reading a proper spelling gives the numeral with its digits
(`unsignedNumeral_chars`), and the three ways to lay out the digits of a decimal are
proper spellings of the same value.
-/

namespace Montage

namespace Json

/-- What can stand behind a value: nothing, a blank, a comma or a closing bracket. -/
def Ends (rest : List Char) : Prop :=
  ∀ c ∈ rest.head?, isGap c = true ∨ c = ',' ∨ c = ']' ∨ c = '}'

/-- The character behind a number is none that could go on it. -/
theorem Ends.head {c : Char} {rest : List Char} (h : Ends (c :: rest)) :
    c.isDigit = false ∧ c ≠ '.' ∧ c ≠ 'e' ∧ c ≠ 'E' := by
  have hc := h c rfl
  simp only [isGap, Bool.or_eq_true, decide_eq_true_eq] at hc
  rcases hc with ((((rfl | rfl) | rfl) | rfl) | rfl | rfl | rfl) <;> decide

/-- The parts of the text of a number, its sign apart. -/
structure Spelling where
  whole : List Char
  fraction : List Char
  power : Option Int

namespace Spelling

/-- The digits behind the point, and the point if there are any. -/
def point (s : Spelling) : List Char := if s.fraction.isEmpty then [] else '.' :: s.fraction

/-- The power of ten. -/
def powerChars : Option Int → List Char
  | none => []
  | some power => 'e' :: (if power < 0 then '-' else '+') :: Nat.toDigits 10 power.natAbs

def chars (s : Spelling) : List Char := s.whole ++ s.point ++ powerChars s.power

/-- The number that is spelled. -/
def decimal (s : Spelling) : Decimal :=
  ⟨digitsValue (s.whole ++ s.fraction), s.power.getD 0 - s.fraction.length⟩

/-- The numeral that is spelled. -/
def numeral (s : Spelling) (negative : Bool) : Numeral :=
  ⟨negative, s.decimal.digits, s.decimal.exponent, s.fraction.isEmpty && s.power.isNone⟩

/-- A spelling that can be read: it has digits before the point, the first of them is a zero
only if it stands alone. -/
structure Proper (s : Spelling) : Prop where
  whole : ∀ c ∈ s.whole, c.isDigit = true
  nonempty : s.whole ≠ []
  alone : ∀ rest, s.whole = '0' :: rest → rest = []
  fraction : ∀ c ∈ s.fraction, c.isDigit = true

end Spelling

/-! ## Reading a spelling -/

/-- Digits are taken up to the first character that is none. -/
theorem takeWhile_digits {digits rest : List Char} (h : ∀ c ∈ digits, c.isDigit = true)
    (hrest : ∀ c ∈ rest.head?, c.isDigit = false) :
    (digits ++ rest).takeWhile Char.isDigit = digits := by
  rw [List.takeWhile_append_of_pos h]
  cases rest with
  | nil => simp
  | cons c rest => simp [hrest c rfl]

/-- Behind the fraction comes neither a digit nor a point. -/
theorem not_isDigit_head_powerChars (power : Option Int) {rest : List Char} (hrest : Ends rest) :
    ∀ c ∈ (Spelling.powerChars power ++ rest).head?, c.isDigit = false ∧ c ≠ '.' := by
  intro c hc
  cases power with
  | none =>
      cases rest with
      | nil => cases hc
      | cons d rest =>
          cases hc
          exact ⟨hrest.head.1, hrest.head.2.1⟩
  | some power =>
      cases hc
      decide

/-- The fraction of a spelling is read behind its point. -/
theorem fractionDigits_point {s : Spelling} (h : s.Proper) {rest : List Char} (hrest : Ends rest) :
    fractionDigits (s.point ++ (Spelling.powerChars s.power ++ rest)) = .ok s.fraction := by
  have hnext := not_isDigit_head_powerChars s.power hrest
  obtain ⟨next, hnext'⟩ : ∃ next, Spelling.powerChars s.power ++ rest = next := ⟨_, rfl⟩
  rw [hnext'] at hnext ⊢
  cases hfraction : s.fraction with
  | nil =>
      rw [Spelling.point, hfraction]
      cases next with
      | nil => rfl
      | cons c next =>
          have hc := (hnext c rfl).2
          simp only [List.isEmpty_nil, ↓reduceIte, List.nil_append]
          unfold fractionDigits
          split
          · rename_i heq
            exact absurd (List.cons.inj heq).1 hc
          · rfl
  | cons d digits =>
      have htake : (d :: digits ++ next).takeWhile Char.isDigit = d :: digits :=
        takeWhile_digits (hfraction ▸ h.fraction) fun c hc => (hnext c hc).1
      simp only [Spelling.point, hfraction, List.isEmpty_cons, Bool.false_eq_true, ↓reduceIte]
      rw [List.cons_append]
      simp only [fractionDigits, htake]

theorem digitsValue_toDigits (n : ℕ) : digitsValue (Nat.toDigits 10 n) = n :=
  Nat.ofDigitChars_ten_toDigits

theorem isDigit_of_mem_toDigits {n : ℕ} : ∀ c ∈ Nat.toDigits 10 n, c.isDigit = true :=
  fun _ hc => Nat.isDigit_of_mem_toDigits (by norm_num) (by norm_num) hc

/-- The exponent of a spelling is read, and all of its characters are passed over. -/
theorem exponentPart_powerChars (power : Option Int) {rest : List Char} (hrest : Ends rest) :
    exponentPart (Spelling.powerChars power ++ rest)
      = .ok (power, (Spelling.powerChars power).length) := by
  cases power with
  | none =>
      cases rest with
      | nil => rfl
      | cons c rest =>
          have hc := hrest.head.2.2
          have hnot : ¬ (c = 'e' ∨ c = 'E') := not_or.mpr hc
          simp only [Spelling.powerChars, List.nil_append, exponentPart, if_neg hnot]
          rfl
  | some power =>
      -- the digits end where the rest begins, because the rest begins with none
      have htake : (Nat.toDigits 10 power.natAbs ++ rest).takeWhile Char.isDigit
          = Nat.toDigits 10 power.natAbs :=
        takeWhile_digits isDigit_of_mem_toDigits fun c hc => by
          cases rest with
          | nil => cases hc
          | cons d rest =>
              cases hc
              exact hrest.head.1
      obtain ⟨d, digits, hdigits⟩ := List.exists_cons_of_ne_nil
        (Nat.toDigits_ne_nil (n := power.natAbs) (b := 10))
      have hvalue := digitsValue_toDigits power.natAbs
      by_cases hneg : power < 0
      · have hpower : -(power.natAbs : ℤ) = power := by omega
        simp only [Spelling.powerChars, if_pos hneg, List.cons_append, exponentPart, true_or,
          ↓reduceIte, exponentSign, htake]
        rw [hdigits]
        simp only
        rw [← hdigits, hvalue, hpower]
        simp
        omega
      · have hpower : (power.natAbs : ℤ) = power := by omega
        simp only [Spelling.powerChars, if_neg hneg, List.cons_append, exponentPart, true_or,
          ↓reduceIte, exponentSign, htake]
        rw [hdigits]
        simp only
        rw [← hdigits, hvalue, hpower]
        simp
        omega

/-- Reading a proper spelling gives its numeral. -/
theorem unsignedNumeral_chars {s : Spelling} (h : s.Proper) (negative : Bool) {rest : List Char}
    (hrest : Ends rest) : unsignedNumeral negative (s.chars ++ rest)
      = .ok (s.numeral negative, s.chars.length) := by
  have hfraction := fractionDigits_point h hrest
  have hpower := exponentPart_powerChars s.power hrest
  obtain ⟨c, digits, hwhole⟩ := List.exists_cons_of_ne_nil h.nonempty
  have hbody : s.chars ++ rest = s.whole ++ (s.point ++ (Spelling.powerChars s.power ++ rest)) := by
    simp only [Spelling.chars, List.append_assoc]
  have htake : (s.chars ++ rest).takeWhile Char.isDigit = s.whole := by
    rw [hbody]
    refine takeWhile_digits h.whole fun c hc => ?_
    unfold Spelling.point at hc
    split at hc
    · exact (not_isDigit_head_powerChars s.power hrest c hc).1
    · cases hc
      rfl
  have hdrop : (s.chars ++ rest).drop s.whole.length
      = s.point ++ (Spelling.powerChars s.power ++ rest) := by
    rw [hbody, List.drop_left]
  have hpoint : (if s.fraction.isEmpty then 0 else 1 + s.fraction.length) = s.point.length := by
    unfold Spelling.point
    split
    · rfl
    · rw [List.length_cons, Nat.add_comm]
  have hlength : s.chars.length
      = s.whole.length + s.point.length + (Spelling.powerChars s.power).length := by
    simp only [Spelling.chars, List.length_append]
  unfold unsignedNumeral
  rw [htake]
  split
  · rename_i hnil
    exact absurd hnil h.nonempty
  · rename_i second more heq
    exact absurd (h.alone _ heq) (List.cons_ne_nil _ _)
  · simp only [hdrop, hfraction, hpoint, bind, Except.bind, List.drop_left, hpower, hlength]
    rfl

/-! ## Laying out digits -/

/-- The digits of a number that is not zero do not begin with a zero. -/
theorem head_toDigits {n : ℕ} (h : 0 < n) : (Nat.toDigits 10 n).head? ≠ some '0' := by
  induction n using Nat.strongRecOn with
  | ind n ih =>
      rcases Nat.lt_or_ge n 10 with hlt | hge
      · have hsmall : ∀ m < 10, 0 < m → [Nat.digitChar m].head? ≠ some '0' := by decide
        rw [Nat.toDigits_of_lt_base hlt]
        exact hsmall n hlt h
      · rw [Nat.toDigits_of_base_le (by norm_num) hge,
          List.head?_append_of_ne_nil _ Nat.toDigits_ne_nil]
        exact ih (n / 10) (Nat.div_lt_self h (by norm_num)) (Nat.div_pos hge (by norm_num))

theorem digitsValue_append (before after : List Char) :
    digitsValue (before ++ after) = 10 ^ after.length * digitsValue before + digitsValue after :=
  (Nat.ofDigitChars_append 0).trans Nat.ofDigitChars_eq_ofDigitChars_zero

theorem digitsValue_zeros (count : ℕ) : digitsValue (List.replicate count '0') = 0 :=
  Nat.ofDigitChars_replicate_zero

namespace Spelling

/-- Digits with the point at `place`, counted from their left end. -/
def inPlace (digits : List Char) (place : ℤ) : Spelling :=
  if place ≤ 0 then ⟨['0'], List.replicate (-place).toNat '0' ++ digits, none⟩
  else if (digits.length : ℤ) ≤ place then
    ⟨digits ++ List.replicate (place - digits.length).toNat '0', ['0'], none⟩
  else ⟨digits.take place.toNat, digits.drop place.toNat, none⟩

/-- One digit before the point and a power of ten. -/
def withExponent (digits : List Char) (place : ℤ) : Spelling :=
  ⟨digits.take 1, digits.drop 1, some (place - 1)⟩

theorem chars_withExponent (digits : List Char) (place : ℤ) :
    (withExponent digits place).chars = NumberStyle.withExponent digits place := rfl

section

variable {digits : List Char} (hsome : digits ≠ [])

include hsome

/-- A spelling without exponent has the characters that are printed for one. -/
theorem chars_inPlace (place : ℤ) :
    (inPlace digits place).chars = NumberStyle.json.inPlace digits place := by
  unfold inPlace NumberStyle.inPlace
  split
  · simp [chars, point, powerChars, hsome]
  · split
    · simp [chars, point, powerChars, NumberStyle.json]
    · rename_i hpos hlt
      have hdrop : (digits.drop place.toNat).isEmpty = false := by
        rw [List.isEmpty_eq_false_iff, Ne, List.drop_eq_nil_iff]
        omega
      simp [chars, point, powerChars, hdrop]

/-- A number in place has digits behind the point, so it is no whole number. -/
theorem fraction_inPlace (place : ℤ) : (inPlace digits place).fraction ≠ [] := by
  unfold inPlace
  split
  · simp [hsome]
  · split
    · simp
    · rw [Ne, List.drop_eq_nil_iff]
      omega

/-- Digits that are laid out in place make a number, if they do not begin with a zero. -/
theorem proper_inPlace (hdigits : ∀ c ∈ digits, c.isDigit = true)
    (hhead : digits.head? ≠ some '0') (place : ℤ) : (inPlace digits place).Proper := by
  obtain ⟨d, more, rfl⟩ := List.exists_cons_of_ne_nil hsome
  have hd : d ≠ '0' := fun heq => hhead (heq ▸ rfl)
  have hzeros : ∀ n : ℕ, ∀ c ∈ List.replicate n '0', c.isDigit = true := by
    intro n c hc
    rw [List.eq_of_mem_replicate hc]
    rfl
  unfold inPlace
  split
  · refine ⟨by simp, by simp, by simp, ?_⟩
    intro c hc
    rcases List.mem_append.mp hc with hc | hc
    · exact hzeros _ c hc
    · exact hdigits c hc
  · split
    · refine ⟨?_, by simp, ?_, by simp⟩
      · intro c hc
        rcases List.mem_append.mp hc with hc | hc
        · exact hdigits c hc
        · exact hzeros _ c hc
      · intro rest heq
        exact absurd (List.cons.inj heq).1 hd
    · rename_i hpos hlt
      obtain ⟨k, hk⟩ : ∃ k, place.toNat = k + 1 := ⟨place.toNat - 1, by omega⟩
      rw [hk]
      refine ⟨fun c hc => hdigits c (List.mem_of_mem_take hc), by simp, ?_,
        fun c hc => hdigits c (List.mem_of_mem_drop hc)⟩
      intro rest heq
      exact absurd (List.cons.inj heq).1 hd

/-- Digits with an exponent make a number. -/
theorem proper_withExponent (hdigits : ∀ c ∈ digits, c.isDigit = true) (place : ℤ) :
    (withExponent digits place).Proper := by
  obtain ⟨d, more, rfl⟩ := List.exists_cons_of_ne_nil hsome
  refine ⟨fun c hc => hdigits c (List.mem_of_mem_take hc), by simp [withExponent], ?_,
    fun c hc => hdigits c (List.mem_of_mem_drop hc)⟩
  intro rest heq
  exact (List.cons.inj heq).2.symm

/-- With an exponent the digits are those of the decimal. -/
theorem decimal_withExponent (place : ℤ) :
    (withExponent digits place).decimal = ⟨digitsValue digits, place - digits.length⟩ := by
  obtain ⟨d, more, rfl⟩ := List.exists_cons_of_ne_nil hsome
  simp [withExponent, decimal]
  omega

end

/-- In place the digits are those of the decimal, with zeros behind them if the decimal is a
whole number. -/
theorem decimal_inPlace (digits : List Char) (place : ℤ) :
    (inPlace digits place).decimal = ⟨digitsValue digits, place - digits.length⟩ ∨
      (digits.length : ℤ) ≤ place ∧ (inPlace digits place).decimal
        = ⟨digitsValue digits * 10 ^ ((place - digits.length).toNat + 1), -1⟩ := by
  unfold inPlace
  split
  · left
    have hzero : digitsValue ['0'] = 0 := rfl
    simp only [decimal, digitsValue_append, digitsValue_zeros, hzero, mul_zero, zero_add,
      Option.getD_none, List.length_append, List.length_replicate]
    congr 1
    omega
  · split
    · rename_i hle
      right
      have hzero : digitsValue ['0'] = 0 := rfl
      refine ⟨hle, ?_⟩
      simp only [decimal, digitsValue_append, digitsValue_zeros, hzero, List.length_replicate,
        List.length_singleton, Option.getD_none, add_zero]
      congr 1
      ring
    · left
      simp only [decimal, List.take_append_drop, Option.getD_none, List.length_drop]
      congr 1
      omega

end Spelling

/-! ## The numerals of numbers -/

section

open Spelling

/-- How the digits of a decimal are laid out. -/
def spellingOf (d : Decimal) : Spelling :=
  let digits := Nat.toDigits 10 d.digits
  let place := d.exponent + digits.length
  if NumberStyle.json.positional place then inPlace digits place else withExponent digits place

/-- How the magnitude of a double is spelled. -/
def realSpelling (p : Binary64) : Spelling :=
  if p.significand = 0 then ⟨['0'], ['0'], none⟩ else spellingOf (Decimal.shortest .toEven p)

/-- How a whole number is spelled. -/
def wholeSpelling (n : ℕ) : Spelling := ⟨Nat.toDigits 10 n, [], none⟩

/-- A decimal that is not zero is spelled as a number. -/
theorem proper_spellingOf {d : Decimal} (h : 0 < d.digits) : (spellingOf d).Proper := by
  simp only [spellingOf]
  split
  · exact proper_inPlace Nat.toDigits_ne_nil isDigit_of_mem_toDigits (head_toDigits h) _
  · exact proper_withExponent Nat.toDigits_ne_nil isDigit_of_mem_toDigits _

/-- The decimal that is spelled, up to zeros at the end. -/
theorem decimal_spellingOf (d : Decimal) : (spellingOf d).decimal = d ∨
    0 ≤ d.exponent ∧ (spellingOf d).decimal = ⟨d.digits * 10 ^ (d.exponent.toNat + 1), -1⟩ := by
  obtain ⟨digits, hdigits⟩ : ∃ digits, Nat.toDigits 10 d.digits = digits := ⟨_, rfl⟩
  have hvalue : digitsValue digits = d.digits := hdigits ▸ digitsValue_toDigits d.digits
  have hplace : d.exponent + digits.length - digits.length = d.exponent := by omega
  simp only [spellingOf, hdigits]
  split
  · rcases decimal_inPlace digits (d.exponent + digits.length) with h | ⟨hle, h⟩
    · rw [h, hvalue, hplace]
      exact Or.inl rfl
    · rw [h, hvalue, hplace]
      exact Or.inr ⟨by omega, rfl⟩
  · rw [decimal_withExponent (hdigits ▸ Nat.toDigits_ne_nil), hvalue, hplace]
    exact Or.inl rfl

/-- The spelling of a decimal has its value. -/
theorem value_decimal_spellingOf (d : Decimal) : (spellingOf d).decimal.value = d.value := by
  rcases decimal_spellingOf d with h | ⟨hnonneg, h⟩
  · rw [h]
  · obtain ⟨k, hk⟩ := Int.eq_ofNat_of_zero_le hnonneg
    rw [h, Decimal.value, Decimal.value, hk, Int.toNat_natCast, zpow_natCast]
    push_cast
    rw [zpow_neg_one, pow_succ]
    field_simp

/-- A real number is never spelled as a whole number. -/
theorem integral_spellingOf (d : Decimal) (negative : Bool) :
    ((spellingOf d).numeral negative).integral = false := by
  simp only [spellingOf, numeral]
  split
  · have hfraction := fraction_inPlace (Nat.toDigits_ne_nil (n := d.digits) (b := 10))
      (d.exponent + (Nat.toDigits 10 d.digits).length)
    rw [List.isEmpty_eq_false_iff.mpr hfraction, Bool.false_and]
  · exact Bool.and_false _

/-- The spelling of a decimal is laid out as its place asks for. -/
theorem chars_spellingOf (d : Decimal) : (spellingOf d).chars
    = if NumberStyle.json.positional (d.exponent + (Nat.toDigits 10 d.digits).length) then
        NumberStyle.json.inPlace (Nat.toDigits 10 d.digits)
          (d.exponent + (Nat.toDigits 10 d.digits).length)
      else NumberStyle.withExponent (Nat.toDigits 10 d.digits)
        (d.exponent + (Nat.toDigits 10 d.digits).length) := by
  simp only [spellingOf, ← chars_inPlace Nat.toDigits_ne_nil, ← chars_withExponent]
  split <;> rfl

/-- The text of a double is its sign and its spelling. -/
theorem json_chars (p : Binary64) :
    NumberStyle.json.chars p = (if p.negative then ['-'] else []) ++ (realSpelling p).chars := by
  unfold NumberStyle.chars realSpelling
  by_cases hzero : p.significand = 0
  · simp only [if_pos hzero]
    rfl
  · simp only [if_neg hzero]
    rw [chars_spellingOf]
    rfl

/-- A double is spelled as a number. -/
theorem proper_realSpelling {p : Binary64} (hp : p.Settled) : (realSpelling p).Proper := by
  unfold realSpelling
  by_cases hzero : p.significand = 0
  · rw [if_pos hzero]
    exact ⟨by simp, by simp, by simp, by simp⟩
  · rw [if_neg hzero]
    have hpos := Nat.pos_of_ne_zero hzero
    have hholds := (Decimal.shortest_spec hp hpos .toEven).1
    exact proper_spellingOf
      ((Decimal.digits_pos_iff _).mpr ((two_zpow_pos _).trans_le (hholds.pos hpos)))

/-- A double is never spelled as a whole number: it keeps its point or has an exponent. -/
theorem integral_realSpelling (p : Binary64) (negative : Bool) :
    ((realSpelling p).numeral negative).integral = false := by
  unfold realSpelling
  split
  · rfl
  · exact integral_spellingOf _ _

/-- The numeral of a double is read as that double. -/
theorem toFloat?_realSpelling {x : Float} {p : Binary64} (hx : Binary64.ofFloat? x = some p) :
    ((realSpelling p).numeral p.negative).toFloat? = some x := by
  obtain ⟨hp, hexact⟩ := Binary64.exact_of_ofFloat? hx
  rcases Nat.eq_zero_or_pos p.significand with hzero | hpos
  · -- both zeros are spelled by themselves; a search would not tell them apart
    have hparts : p = ⟨p.negative, 0, -1074⟩ := by
      have hexponent := hp.full.resolve_left (by omega)
      cases p
      simp_all
    have hplus : Binary64.ofFloat? 0 = some ⟨false, 0, -1074⟩ := by decide +kernel
    have hminus : Binary64.ofFloat? (-0) = some ⟨true, 0, -1074⟩ := by decide +kernel
    rw [realSpelling, if_pos hzero]
    rw [hparts] at hx
    cases hnegative : p.negative with
    | false =>
        rw [hnegative] at hx
        rw [Binary64.ofFloat?_inj hx hplus]
        rfl
    | true =>
        rw [hnegative] at hx
        rw [Binary64.ofFloat?_inj hx hminus]
        rfl
  · obtain ⟨hholds, -⟩ := Decimal.shortest_spec hp hpos .toEven
    obtain ⟨hlow, hhigh⟩ := Decimal.shortest_exponent_bounds hp hpos .toEven
    obtain ⟨d, hd⟩ : ∃ d, Decimal.shortest .toEven p = d := ⟨_, rfl⟩
    rw [hd] at hholds hlow hhigh
    have hexponent : (spellingOf d).decimal.exponent.natAbs ≤ 2048 := by
      rcases decimal_spellingOf d with h | ⟨-, h⟩
      · rw [h]
        omega
      · rw [h]
        change (1 : ℕ) ≤ 2048
        norm_num
    rw [← value_decimal_spellingOf d] at hholds
    obtain ⟨y, hy, hyexact⟩ := Decimal.toFloat?_of_holds hp hpos hexponent hholds
    have hread : ((realSpelling p).numeral p.negative).toFloat?
        = some (if p.negative then -y else y) := by
      rw [realSpelling, if_neg hpos.ne', hd]
      exact congrArg (Option.map _) hy
    rw [hread]
    refine congrArg some (Binary64.ofFloat?_inj (Binary64.ofFloat?_of_exact hp hpos ?_) hx)
    rw [Binary64.exact]
    cases p.negative with
    | false => exact hyexact
    | true =>
        rw [if_pos rfl, if_pos rfl, Double.exact_neg, hyexact]
        rfl

/-- A whole number is spelled as a number. -/
theorem proper_wholeSpelling (n : ℕ) : (wholeSpelling n).Proper := by
  refine ⟨isDigit_of_mem_toDigits, Nat.toDigits_ne_nil, ?_, by simp [wholeSpelling]⟩
  intro rest heq
  rcases Nat.eq_zero_or_pos n with rfl | hpos
  · exact (List.cons.inj heq).2.symm
  · exact absurd (congrArg List.head? heq) (head_toDigits hpos)

/-- The numeral of a double. -/
def realNumeral (p : Binary64) : Numeral := (realSpelling p).numeral p.negative

/-- The numeral of a whole number. -/
def intNumeral (i : ℤ) : Numeral := (wholeSpelling i.natAbs).numeral (decide (i < 0))

/-- The numeral of a finite double is read as that double. -/
theorem value_realNumeral {x : Float} {p : Binary64} (hx : Binary64.ofFloat? x = some p) :
    (realNumeral p).value = .real x := by
  have hread := toFloat?_realSpelling hx
  have hintegral := integral_realSpelling p p.negative
  simp only [realNumeral, Numeral.value, hintegral, Bool.false_and, Bool.false_eq_true, ↓reduceIte,
    hread]

/-- A whole number of at most 64 bits keeps its value. -/
theorem value_intNumeral {i : ℤ} (hlow : -2 ^ 63 ≤ i) (hhigh : i < 2 ^ 64) :
    (intNumeral i).value = .integer i := by
  have hnumeral : intNumeral i = ⟨decide (i < 0), i.natAbs, 0, true⟩ := by
    simp only [intNumeral, wholeSpelling, numeral, decimal, List.append_nil, digitsValue_toDigits]
    rfl
  rw [hnumeral, Numeral.value]
  by_cases hneg : i < 0
  · have hdigits : i.natAbs ≤ UInt64.size / 2 := by
      change i.natAbs ≤ 2 ^ 63
      omega
    have hpos : 0 < i.natAbs := by omega
    have hvalue : -(i.natAbs : ℤ) = i := by omega
    simp only [hneg, hdigits, hpos, decide_true, Bool.not_true, Bool.and_false, Bool.false_and,
      Bool.false_eq_true, Bool.and_self, ↓reduceIte, hvalue]
  · have hdigits : i.natAbs < UInt64.size := by
      change i.natAbs < 2 ^ 64
      omega
    have hvalue : (i.natAbs : ℤ) = i := by omega
    simp only [hneg, hdigits, decide_false, decide_true, Bool.not_false, Bool.and_self, ↓reduceIte,
      hvalue]

end

end Json

end Montage
