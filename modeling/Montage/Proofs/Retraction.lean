import Montage.Proofs.Numbers.Rounded
import Montage.Proofs.Numbers.Signed
import Montage.Proofs.Placement

/-!
# A clamp changes no more than it must

`Clamp.place_inside` says that a caption is placed inside the video.  Here is what a clamp
leaves of the request on the way there, in exact arithmetic.

The duration has a closed form in which the start plays no part (`Clamp.exists_place_eq`), and
a caption that is moved back as a whole ends where the gap of the clamp begins
(`Clamp.place_of_overruns`).  The spans that a clamp leaves alone are known exactly:
`Clamp.Rests` describes them, every placed span is one of them (`Clamp.exists_rests`), and a
clamp keeps each of them (`Clamp.place_of_rests`).  So a clamp is a retraction, and a caption
that has been placed once is not moved again.
-/

namespace Montage

/-- Two numbers that are bounded from below, and whose sum is bounded, are rational. -/
theorem Exact.exists_of_add_le {x y : Exact} {a b c : ℚ} (hx : .finite a ≤ x) (hy : .finite b ≤ y)
    (h : x + y ≤ .finite c) :
    ∃ p q : ℚ, x = .finite p ∧ y = .finite q ∧ a ≤ p ∧ b ≤ q ∧ p + q ≤ c := by
  have hadd : Exact.infinite false + .infinite false = .infinite false := rfl
  cases x with
  | finite p =>
      cases y with
      | finite q =>
          exact ⟨p, q, rfl, rfl, Exact.finite_le_finite.mp hx, Exact.finite_le_finite.mp hy,
            Exact.finite_le_finite.mp h⟩
      | infinite t => simp_all
      | nan => exact absurd hy (Exact.not_le_nan _)
  | infinite s => cases y <;> simp_all
  | nan => exact absurd hx (Exact.not_le_nan _)

namespace Clamp

/-- A span that a clamp leaves alone: it fits, and if it stands at the very end of the video,
where it can have no duration, that is where the video begins, or the clamp asks for no gap. -/
structure Rests (lookback minimum video start duration : ℚ) : Prop
    extends Fits minimum video start duration where
  clear : start < video ∨ start = 0 ∨ lookback = 0

section Spans

variable {lookback minimum video : ℚ}

/-- Every request gets a span that the clamp leaves alone, and how long it lasts follows from
the duration that was asked for. -/
theorem exists_rests (minimum : ℚ) (hlookback : 0 ≤ lookback) (hvideo : 0 ≤ video)
    (request : Span Exact) :
    ∃ s d : ℚ, Rests lookback minimum video s d ∧
      d = max minimum (request.duration.within video) ∧
      (exact lookback minimum).place (.finite video) request = ⟨.finite s, .finite d⟩ := by
  obtain ⟨s, d, hbegins, hd, hplace⟩ := exists_place_eq minimum hlookback hvideo request
  have hnonneg : 0 ≤ d := hd ▸ Exact.within_nonneg hvideo request.duration
  have hin : s + d ≤ video :=
    hbegins.stop_le (hd ▸ Exact.within_le hvideo request.duration)
  refine ⟨_, _, ⟨fits_settled hbegins.nonneg hin, ?_⟩, hd ▸ rfl, hplace⟩
  by_cases hpast : video < s + max minimum d
  · -- What runs past the end now has some duration, so it begins in front of the end.
    rw [if_pos hpast]
    rcases max_choice 0 (video - max minimum d) with h | h <;> rw [h]
    · exact Or.inr (Or.inl rfl)
    · exact Or.inl (by linarith)
  · rw [if_neg hpast]
    exact hbegins.clear

namespace Rests

variable {s d : ℚ} (h : Rests lookback minimum video s d)

include h

/-- A span that rests begins where a caption can begin. -/
theorem begins : Begins lookback video s d := by
  refine ⟨h.start_nonneg, ?_, h.clear⟩
  rcases lt_or_ge video minimum with hshort | hfits
  · exact Or.inl (h.short hshort).1
  · exact Or.inr (h.stop_le hfits)

/-- The first step moves a span that rests to where it is. -/
theorem shifted_eq (hlookback : 0 ≤ lookback) (hminimum : 0 ≤ minimum) (hvideo : 0 ≤ video) :
    max 0 (if video ≤ s ∨ video < s + d then video - d - lookback else s) = s := by
  by_cases hover : video ≤ s ∨ video < s + d
  · rw [if_pos hover]
    rcases lt_or_ge video minimum with hshort | hfits
    · obtain ⟨rfl, rfl⟩ := h.short hshort
      exact max_eq_left (by linarith)
    · -- A span that fits overruns only at the very end, where it has no duration.
      have hstop := h.stop_le hfits
      have hlast : video ≤ s := hover.resolve_right (not_lt.mpr hstop)
      obtain rfl : d = 0 := by linarith [h.minimum_le]
      obtain rfl : s = video := by linarith
      rcases h.clear with hclear | rfl | rfl
      · exact absurd hclear (lt_irrefl s)
      · exact max_eq_left (by linarith)
      · rw [sub_zero, sub_zero, max_eq_right hvideo]
  · rw [if_neg hover, max_eq_right h.start_nonneg]

/-- A duration between the minimum and the video is left as it is. -/
theorem fitted_eq : max minimum (min d video) = d := by
  rcases lt_or_ge video minimum with hshort | hfits
  · obtain ⟨-, rfl⟩ := h.short hshort
    exact max_eq_left (min_le_left d video)
  · have hdv : d ≤ video := by linarith [h.stop_le hfits, h.start_nonneg]
    rw [min_eq_left hdv, max_eq_right h.minimum_le]

/-- A caption that ends in the video is not moved once more. -/
theorem settled_eq : (if video < s + d then max 0 (video - d) else s) = s := by
  by_cases hpast : video < s + d
  · have hshort : video < minimum := by
      by_contra hfits
      linarith [h.stop_le (not_lt.mp hfits)]
    obtain ⟨rfl, rfl⟩ := h.short hshort
    rw [if_pos hpast, max_eq_left (by linarith)]
  · rw [if_neg hpast]

end Rests

/-- A clamp keeps the spans that rest. -/
theorem place_of_rests {s d : ℚ} (hlookback : 0 ≤ lookback) (hminimum : 0 ≤ minimum)
    (hvideo : 0 ≤ video) (h : Rests lookback minimum video s d) :
    (exact lookback minimum).place (.finite video) ⟨.finite s, .finite d⟩
      = ⟨.finite s, .finite d⟩ := by
  have hduration : requested (.finite d) = Exact.finite d := by
    rw [requested_finite, max_eq_right (hminimum.trans h.minimum_le)]
  have hstart : (exact lookback minimum).shiftedStart (.finite video) (.finite s) (.finite d)
      = .finite s := by
    rw [shiftedStart_rational, h.shifted_eq hlookback hminimum hvideo]
  rw [place_of_begins hvideo hduration h.begins hstart, h.fitted_eq, h.settled_eq]

/-- A caption for which there is room in front of the gap is moved back as a whole, so that it
ends where the gap begins. -/
theorem place_of_overruns {d : ℚ} (start : Exact) (hlookback : 0 ≤ lookback)
    (hminimum : 0 ≤ minimum) (hd : minimum ≤ d) (hroom : d + lookback ≤ video)
    (hover : overruns (.finite video) start (.finite d) = true) :
    (exact lookback minimum).place (.finite video) ⟨start, .finite d⟩
      = ⟨.finite (video - d - lookback), .finite d⟩ := by
  have hnonneg : 0 ≤ d := hminimum.trans hd
  have hduration : requested (.finite d) = Exact.finite d := by
    rw [requested_finite, max_eq_right hnonneg]
  have hback : max 0 (video - d - lookback) = video - d - lookback :=
    max_eq_right (by linarith)
  have hstart : (exact lookback minimum).shiftedStart (.finite video) start (.finite d)
      = .finite (video - d - lookback) := by
    rw [shiftedStart, if_pos hover, Exact.finite_sub_finite, exact, Exact.finite_sub_finite,
      Exact.ofNat_eq, Exact.atLeast_finite, Nat.cast_zero, hback]
  have hbegins : Begins lookback video (video - d - lookback) d :=
    hback ▸ begins_of_shifted hlookback hnonneg
  have hfitted : max minimum (min d video) = d := by
    rw [min_eq_left (by linarith), max_eq_right hd]
  rw [place_of_begins (by linarith) hduration hbegins hstart, hfitted, if_neg (by linarith)]

end Spans

/-- A placed span counts as unchanged where it is what was asked for, and that is two
numbers. -/
theorem differs_eq_false_iff {placed request : Span Exact} :
    placed.differs request = false ↔
      placed = request ∧ request.start ≠ .nan ∧ request.duration ≠ .nan := by
  obtain ⟨s, d⟩ := placed
  obtain ⟨s', d'⟩ := request
  rw [Span.differs, Bool.or_eq_false_iff, bne, bne, Bool.not_eq_false', Bool.not_eq_false',
    Exact.beq_iff, Exact.beq_iff, Span.mk.injEq]
  exact and_and_and_comm

/-- What a clamp with the given margins leaves of a request in a video of length `video`. -/
structure Retracts (clamp : Clamp Exact) (lookback minimum video : ℚ) (request : Span Exact) :
    Prop where
  /-- Whatever the start, the duration is the closest to the one that was asked for. -/
  duration_eq : (clamp.place (.finite video) request).duration
    = .finite (max minimum (request.duration.within video))
  whole : .finite minimum ≤ request.duration → request.duration ≤ .finite video →
    (clamp.place (.finite video) request).duration = request.duration
  stop_eq : .finite minimum ≤ request.duration →
    request.duration + .finite lookback ≤ .finite video →
      .finite video ≤ request.start ∨ .finite video < request.stop →
        (clamp.place (.finite video) request).stop = .finite (video - lookback)
  unmoved_iff : 0 < minimum → minimum ≤ video →
    ((clamp.place (.finite video) request).differs request = false ↔
      0 ≤ request.start ∧ .finite minimum ≤ request.duration ∧ request.stop ≤ .finite video)
  again : clamp.place (.finite video) (clamp.place (.finite video) request)
      = clamp.place (.finite video) request ∧
    (clamp.place (.finite video) (clamp.place (.finite video) request)).differs
      (clamp.place (.finite video) request) = false

section Retraction

variable {lookback minimum video : ℚ}

/-- In a video that is long enough, a caption stays where it was asked for exactly when it
starts in the video, lasts the minimum and ends in the video. -/
theorem unmoved_iff_of_fits (hlookback : 0 ≤ lookback) (hvideo : 0 ≤ video)
    (hminimum : 0 < minimum) (hfits : minimum ≤ video) (request : Span Exact) :
    ((exact lookback minimum).place (.finite video) request).differs request = false ↔
      0 ≤ request.start ∧ .finite minimum ≤ request.duration ∧ request.stop ≤ .finite video := by
  rw [differs_eq_false_iff]
  constructor
  · rintro ⟨hplace, -, -⟩
    obtain ⟨s, d, hrests, -, hplaced⟩ := exists_rests minimum hlookback hvideo request
    rw [hplace] at hplaced
    subst hplaced
    simp only [Span.stop, Exact.ofNat_eq, Exact.finite_add_finite, Exact.finite_le_finite,
      Nat.cast_zero]
    exact ⟨hrests.start_nonneg, hrests.minimum_le, hrests.stop_le hfits⟩
  · rintro ⟨hstart, hduration, hstop⟩
    obtain ⟨start, duration⟩ := request
    obtain ⟨s, d, rfl, rfl, hs, hd, hsd⟩ := Exact.exists_of_add_le hstart hduration hstop
    rw [Nat.cast_zero] at hs
    have hrests : Rests lookback minimum video s d :=
      ⟨⟨hs, hd, fun _ => hsd, fun hshort => absurd hshort (not_lt.mpr hfits)⟩,
        Or.inl (by linarith)⟩
    exact ⟨place_of_rests hlookback hminimum.le hvideo hrests, Exact.noConfusion,
      Exact.noConfusion⟩

/-- Every clamp with rational margins retracts every request. -/
theorem retracts_exact (hlookback : 0 ≤ lookback) (hminimum : 0 ≤ minimum) (hvideo : 0 ≤ video)
    (request : Span Exact) :
    Retracts (exact lookback minimum) lookback minimum video request := by
  obtain ⟨s, d, hrests, hd, hplace⟩ := exists_rests minimum hlookback hvideo request
  refine ⟨?_, ?_, ?_, ?_, ?_⟩
  · rw [hplace, hd]
  · intro hlong hshort
    obtain ⟨asked, hasked, hfrom, hto⟩ := Exact.exists_of_between hlong hshort
    rw [hplace, hd, hasked, Exact.within, max_eq_left (hminimum.trans hfrom),
      min_eq_left hto, max_eq_right hfrom]
  · intro hlong hroom hover
    obtain ⟨start, duration⟩ := request
    obtain ⟨asked, _, rfl, hgap, hasked, -, hin⟩ :=
      Exact.exists_of_add_le hlong (Exact.finite_le_finite.mpr le_rfl) hroom
    obtain rfl := Exact.finite.inj hgap
    have hoverruns : overruns (.finite video) start (.finite asked) = true := by
      rwa [overruns, Bool.or_eq_true, decide_eq_true_eq, decide_eq_true_eq]
    rw [place_of_overruns start hlookback hminimum hasked hin hoverruns, Span.stop,
      Exact.finite_add_finite]
    congr 1
    ring
  · intro hpos hfits
    exact unmoved_iff_of_fits hlookback hvideo hpos hfits request
  · rw [hplace, place_of_rests hlookback hminimum hvideo hrests, differs_eq_false_iff]
    exact ⟨rfl, rfl, Exact.noConfusion, Exact.noConfusion⟩

end Retraction

/-- **A clamp changes no more than it must.**  In exact arithmetic, a clamp that ends up with
finite margins keeps, of every request in every video, NaN and the infinities included:

* the duration, unless it is shorter than the minimum or longer than the video;
* the whole of a caption that comes too late and for which there is room in front of the gap;
* a caption that fits, and nothing else as it was asked for;
* what it has placed before. -/
theorem place_retracts {lookback minimum : Exact}
    (hlookback : Scalar.isFinite (ofMargins lookback minimum).lookback = true)
    (hminimum : Scalar.isFinite (ofMargins lookback minimum).minimum = true) :
    ∃ l m : ℚ, 0 ≤ l ∧ 0 ≤ m ∧ (ofMargins lookback minimum).lookback = .finite l ∧
      (ofMargins lookback minimum).minimum = .finite m ∧
      ∀ (video : ℚ) (request : Span Exact), 0 ≤ video →
        Retracts (ofMargins lookback minimum) l m video request := by
  obtain ⟨l, m, hl, hm, hclamp⟩ := exists_ofMargins hlookback hminimum
  rw [hclamp]
  exact ⟨l, m, hl, hm, rfl, rfl, fun _ request hvideo => retracts_exact hl hm hvideo request⟩

/-- A caption of three seconds at the end of eleven moves to half a second before it. -/
theorem place_retracts_late_caption :
    Scalar.isFinite halfSecond.lookback = true ∧ Scalar.isFinite halfSecond.minimum = true ∧
      ∃ l m : ℚ, halfSecond.lookback = .finite l ∧ halfSecond.minimum = .finite m ∧
        Retracts halfSecond l m 11 ⟨.finite 10, .finite 3⟩ ∧
        (halfSecond.place (.finite 11) ⟨.finite 10, .finite 3⟩).start = .finite (15 / 2) ∧
        (halfSecond.place (.finite 11) ⟨.finite 10, .finite 3⟩).duration = .finite 3 := by
  have hlookback : Scalar.isFinite halfSecond.lookback = true := by decide +kernel
  have hminimum : Scalar.isFinite halfSecond.minimum = true := by decide +kernel
  obtain ⟨l, m, -, -, hl, hm, hretracts⟩ := place_retracts hlookback hminimum
  exact ⟨hlookback, hminimum, l, m, hl, hm, hretracts 11 _ (by norm_num), by decide +kernel,
    by decide +kernel⟩

end Clamp

end Montage
