import Montage.Clamp
import Montage.Proofs.Config
import Montage.Proofs.Numbers.Rounded

/-!
# Captions that a longer video leaves alone

A caption that stays where it was asked for stays there in every longer video.
`Clamp.place_of_le` says so for exact numbers and for doubles alike.

The span that a request gets where nothing is in its way does not depend on the video:
`Clamp.asRequested` is this span, and a request that is met gets no other
(`place_eq_asRequested`).  So it is enough to see that nothing is in the way of the request
in the longer video either.  There are three ways to stay in place:

* the request fits into the video, and then into every longer one (`place_of_not_overruns`);
* the caption begins with the video and lasts the shortest time that captions are shown,
  which is longer than the video: it may still be longer than the other one (`place_of_short`);
* the request does not fit, but the clamp moves it back to where it was.  Then it ends where
  the video does, up to one rounding, and in a longer video there is room for it
  (`not_past_of_lt`).
-/

namespace Montage

namespace Clamp

open RoundedScalar

variable {α : Type} [Scalar α] [RoundedScalar α]

/-! ## Sums and differences of times -/

section Times

variable {x y : α} {p q : ℚ}

/-- A duration that can pass: a time, or endless. -/
def CanPass (duration : α) : Prop :=
  (∃ d : ℚ, 0 ≤ d ∧ toExact duration = .finite d) ∨ toExact duration = .infinite false

theorem CanPass.of_time (hp : 0 ≤ p) (hx : toExact x = .finite p) : CanPass x := .inl ⟨p, hp, hx⟩

/-- The requested duration of any caption can pass. -/
theorem canPass_requested (duration : α) : CanPass (requested duration) := by
  have hzero : CanPass (0 : α) := .of_time le_rfl toExact_zero
  unfold requested
  by_cases hnan : Scalar.isNaN duration = true
  · rw [if_pos hnan]
    exact hzero
  · rw [if_neg hnan, CanPass, toExact_atLeast, toExact_zero]
    cases hvalue : toExact duration with
    | finite d => exact .inl ⟨max 0 d, le_max_left 0 d, Exact.atLeast_finite 0 d⟩
    | infinite s =>
        cases s with
        | true => exact .inl ⟨0, le_rfl, Exact.atLeast_infinite 0 true⟩
        | false => exact .inr (Exact.atLeast_infinite 0 false)
    | nan => exact .inl ⟨0, le_rfl, Exact.atLeast_nan _⟩

/-- A later start does not lead to an earlier end. -/
theorem CanPass.le_add (hy : CanPass y) (hp : 0 ≤ p) (hx : toExact x = .finite p) :
    toExact y ≤ toExact (x + y) := by
  apply le_toExact_add
  rw [hx]
  rcases hy with ⟨d, _, hd⟩ | hd
  · rw [hd, Exact.finite_add_finite, Exact.finite_le_finite]
    linarith
  · rw [hd]
    rfl

/-- Taking away a time, or all of it, does not lead above a number that was not exceeded. -/
theorem CanPass.sub_le (hy : CanPass y) {bound : α} (hbound : toExact bound = .finite q)
    (hx : toExact x ≤ .finite q) : toExact (x - y) ≤ .finite q := by
  rw [← hbound]
  apply toExact_sub_le
  rw [hbound]
  rcases hy with ⟨p, hp, hy⟩ | hy
  · cases hvalue : toExact x with
    | finite r =>
        rw [hvalue, Exact.finite_le_finite] at hx
        rw [hy, Exact.finite_sub_finite, Exact.finite_le_finite]
        linarith
    | infinite s =>
        rw [hvalue] at hx
        rwa [hy]
    | nan =>
        rw [hvalue] at hx
        exact absurd hx (Exact.not_nan_le _)
  · cases hvalue : toExact x with
    | finite r =>
        rw [hy]
        rfl
    | infinite s =>
        obtain rfl : s = true := by simpa [hvalue] using hx
        rw [hy]
        rfl
    | nan =>
        rw [hvalue] at hx
        exact absurd hx (Exact.not_nan_le _)

end Times

/-! ## Where requests are placed -/

/-- A clamp whose margins are times. -/
structure Margins (clamp : Clamp α) (lookback minimum : ℚ) : Prop where
  lookback_nonneg : 0 ≤ lookback
  minimum_nonneg : 0 ≤ minimum
  toExact_lookback : toExact clamp.lookback = .finite lookback
  toExact_minimum : toExact clamp.minimum = .finite minimum

/-- Settings without a fault give the clamp finite margins. -/
theorem exists_margins {config : CompilerConfig α} (h : config.fault? = none) :
    ∃ lookback minimum, Margins (ofConfig config) lookback minimum := by
  have hmargin : ∀ which, ∃ q : ℚ, 0 ≤ q ∧
      toExact (Scalar.atLeast 0 (config.margin which)) = .finite q := by
    intro which
    have hcheck := (CompilerConfig.fault?_eq_none_iff.mp h).2.1 which
    rw [CompilerConfig.isMargin, Bool.and_eq_true, isFinite_toExact, Exact.isFinite_iff] at hcheck
    obtain ⟨⟨q, hq⟩, _⟩ := hcheck
    refine ⟨max 0 q, le_max_left 0 q, ?_⟩
    rw [toExact_atLeast, toExact_zero, hq, Exact.atLeast_finite]
  obtain ⟨lookback, hlookback, hlookbackEq⟩ := hmargin .overlayLookback
  obtain ⟨minimum, hminimum, hminimumEq⟩ := hmargin .minOverlay
  exact ⟨lookback, minimum, hlookback, hminimum, hlookbackEq, hminimumEq⟩

/-- A video that ends, and not at once. -/
structure Lasts (video : α) (v : ℚ) : Prop where
  pos : 0 < v
  toExact_eq : toExact video = .finite v

theorem Lasts.le {video : α} {v : ℚ} (hvideo : Lasts video v) : toExact video ≤ .finite v := by
  rw [hvideo.toExact_eq, Exact.finite_le_finite]

section Place

variable {clamp : Clamp α} {lookback minimum v : ℚ} {video : α}

/-- The length of a video that lasts is relied on as it is. -/
theorem reliable_of_lasts (hvideo : Lasts video v) : reliable video = video := by
  have hfinite : Scalar.isFinite video = true := by
    rw [isFinite_toExact, hvideo.toExact_eq]
    rfl
  have hpos : 0 < video := by
    rw [lt_iff, toExact_zero, hvideo.toExact_eq, Exact.finite_lt_finite]
    exact hvideo.pos
  rw [reliable, if_pos hfinite, Scalar.atLeast, if_pos hpos]

/-- In a video that lasts, placing is shifting, fitting and settling with the length as it
is. -/
theorem place_of_lasts (hvideo : Lasts video v) (request : Span α) :
    clamp.place video request =
      ⟨settledStart video
          (clamp.shiftedStart video request.start (requested request.duration))
          (clamp.fittedDuration video
            (clamp.shiftedStart video request.start (requested request.duration))
            (requested request.duration)),
        clamp.fittedDuration video
          (clamp.shiftedStart video request.start (requested request.duration))
          (requested request.duration)⟩ := by
  rw [place, reliable_of_lasts hvideo]

/-- A shifted start lies in the video. -/
theorem exists_shiftedStart (hclamp : Margins clamp lookback minimum) (hvideo : Lasts video v)
    (start : α) {duration : α} (hduration : CanPass duration) :
    ∃ s : ℚ, 0 ≤ s ∧ s ≤ v ∧ toExact (clamp.shiftedStart video start duration) = .finite s := by
  have hbound : ¬ .finite v < toExact
      (if overruns video start duration then video - duration - clamp.lookback else start) := by
    by_cases hover : overruns video start duration = true
    · rw [if_pos hover]
      apply Exact.not_lt_of_le
      have hlookback : CanPass clamp.lookback :=
        .of_time hclamp.lookback_nonneg hclamp.toExact_lookback
      exact hlookback.sub_le hvideo.toExact_eq (hduration.sub_le hvideo.toExact_eq hvideo.le)
    · rw [if_neg hover]
      intro hlate
      apply hover
      have hle : video ≤ start := by
        rw [le_iff, hvideo.toExact_eq]
        cases hvalue : toExact start with
        | finite r =>
            rw [hvalue, Exact.finite_lt_finite] at hlate
            exact Exact.finite_le_finite.mpr hlate.le
        | infinite t =>
            rw [hvalue, Exact.finite_lt_infinite] at hlate
            exact Exact.finite_le_infinite.mpr hlate
        | nan =>
            rw [hvalue] at hlate
            exact absurd hlate (Exact.not_lt_nan _)
      rw [overruns, decide_eq_true hle, Bool.true_or]
  obtain ⟨s, hs, hsv, hexact⟩ := exists_atLeast toExact_zero hbound
  rw [max_eq_right hvideo.pos.le] at hsv
  exact ⟨s, hs, hsv, hexact⟩

/-- A fitted duration is at least the minimum and at most the longer of the minimum and the
video. -/
theorem exists_fittedDuration (hclamp : Margins clamp lookback minimum) (hvideo : Lasts video v)
    {start duration : α} {s : ℚ} (hs : 0 ≤ s) (hstart : toExact start = .finite s)
    (hduration : CanPass duration) :
    ∃ d : ℚ, minimum ≤ d ∧ d ≤ max minimum v ∧
      toExact (clamp.fittedDuration video start duration) = .finite d := by
  apply exists_atLeast hclamp.toExact_minimum
  by_cases hpast : video < start + duration
  · rw [if_pos hpast]
    apply Exact.not_lt_of_le
    exact (CanPass.of_time hs hstart).sub_le hvideo.toExact_eq hvideo.le
  · rw [if_neg hpast]
    intro hlong
    apply hpast
    -- The duration alone leads past the end, so it does behind a later start.
    rw [lt_iff, hvideo.toExact_eq]
    exact Exact.lt_of_lt_of_le hlong (hduration.le_add hs hstart)

/-- A settled start lies in the video. -/
theorem exists_settledStart (hvideo : Lasts video v) {start duration : α} {s d : ℚ} (hs : 0 ≤ s)
    (hsv : s ≤ v) (hstart : toExact start = .finite s) (hd : 0 ≤ d)
    (hduration : toExact duration = .finite d) :
    ∃ s' : ℚ, 0 ≤ s' ∧ s' ≤ v ∧ toExact (settledStart video start duration) = .finite s' := by
  unfold settledStart
  by_cases hpast : video < start + duration
  · rw [if_pos hpast]
    have hbound := Exact.not_lt_of_le
      ((CanPass.of_time hd hduration).sub_le hvideo.toExact_eq hvideo.le)
    obtain ⟨s', hs', hsv', hexact⟩ := exists_atLeast toExact_zero hbound
    rw [max_eq_right hvideo.pos.le] at hsv'
    exact ⟨s', hs', hsv', hexact⟩
  · rw [if_neg hpast]
    exact ⟨s, hs, hsv, hstart⟩

/-- Whatever a request asks for, it gets a time within the video, for the minimum at least
and for no longer than the video or the minimum. -/
theorem exists_place (hclamp : Margins clamp lookback minimum) (hvideo : Lasts video v)
    (request : Span α) :
    ∃ s d : ℚ, 0 ≤ s ∧ s ≤ v ∧ minimum ≤ d ∧ d ≤ max minimum v ∧
      toExact (clamp.place video request).start = .finite s ∧
      toExact (clamp.place video request).duration = .finite d := by
  have hrequested := canPass_requested request.duration
  rw [place_of_lasts hvideo]
  obtain ⟨s, hs, hsv, hstart⟩ := exists_shiftedStart hclamp hvideo request.start hrequested
  obtain ⟨d, hminimum, hd, hduration⟩ :=
    exists_fittedDuration hclamp hvideo hs hstart hrequested
  have hnonneg := hclamp.minimum_nonneg.trans hminimum
  obtain ⟨s', hs', hsv', hstart'⟩ :=
    exists_settledStart hvideo hs hsv hstart hnonneg hduration
  exact ⟨s', d, hs', hsv', hminimum, hd, hstart', hduration⟩

/-! ## Requests that are met -/

/-- The span that a request gets where nothing is in its way. -/
def asRequested (clamp : Clamp α) (request : Span α) : Span α :=
  ⟨Scalar.atLeast 0 request.start, Scalar.atLeast clamp.minimum (requested request.duration)⟩

/-- A request for two times. -/
structure Asks (request : Span α) (s d : ℚ) : Prop where
  start : toExact request.start = .finite s
  duration : toExact (requested request.duration) = .finite d

/-- A request that is met asks for two times that the clamp can give. -/
theorem exists_asks (hclamp : Margins clamp lookback minimum) (hvideo : Lasts video v)
    {request : Span α} (hmet : (clamp.place video request).differs request = false) :
    ∃ s d : ℚ, 0 ≤ s ∧ s ≤ v ∧ minimum ≤ d ∧ d ≤ max minimum v ∧ Asks request s d ∧
      toExact (clamp.place video request).start = .finite s ∧
      toExact (clamp.place video request).duration = .finite d := by
  obtain ⟨s, d, hs, hsv, hminimum, hd, hstart, hduration⟩ := exists_place hclamp hvideo request
  rw [Span.differs, Bool.or_eq_false_iff, bne, bne, Bool.not_eq_false', Bool.not_eq_false',
    beq_iff, beq_iff] at hmet
  obtain ⟨⟨hstartEq, _⟩, hdurationEq, _⟩ := hmet
  rw [hstart] at hstartEq
  rw [hduration] at hdurationEq
  have hrequested : toExact (requested request.duration) = .finite d := by
    have hnan : ¬ Scalar.isNaN request.duration = true := by
      rw [isNaN_toExact, ← hdurationEq]
      exact of_decide_eq_false rfl
    rw [requested, if_neg hnan, toExact_atLeast, toExact_zero, ← hdurationEq, Exact.atLeast_finite,
      max_eq_right (hclamp.minimum_nonneg.trans hminimum)]
  exact ⟨s, d, hs, hsv, hminimum, hd, ⟨hstartEq.symm, hrequested⟩, hstart, hduration⟩

omit [RoundedScalar α] in
/-- Every caption has been moved up to the beginning of the video. -/
theorem exists_settledStart_eq (clamp : Clamp α) (video start duration fitted : α) :
    ∃ y, settledStart video (clamp.shiftedStart video start duration) fitted
      = Scalar.atLeast 0 y := by
  unfold settledStart
  by_cases hpast : video < clamp.shiftedStart video start duration + fitted
  · exact ⟨_, if_pos hpast⟩
  · exact ⟨_, if_neg hpast⟩

/-- A request that is met gets the span that it would get with nothing in its way. -/
theorem place_eq_asRequested (hclamp : Margins clamp lookback minimum) (hvideo : Lasts video v)
    {request : Span α} (hmet : (clamp.place video request).differs request = false) :
    clamp.place video request = clamp.asRequested request := by
  obtain ⟨s, d, hs, _, _, _, hasks, hstart, hduration⟩ := exists_asks hclamp hvideo hmet
  rw [place_of_lasts hvideo] at hstart hduration ⊢
  obtain ⟨y, hy⟩ := exists_settledStart_eq clamp video request.start
    (requested request.duration) (clamp.fittedDuration video
      (clamp.shiftedStart video request.start (requested request.duration))
      (requested request.duration))
  have hstartEq := atLeast_eq toExact_zero le_rfl (hy ▸ hstart) hasks.start
  have hdurationEq :=
    atLeast_eq hclamp.toExact_minimum hclamp.minimum_nonneg hduration hasks.duration
  rw [hy, hstartEq, asRequested, Span.mk.injEq]
  exact ⟨rfl, hdurationEq⟩

/-- A request that fits gets what it asks for. -/
theorem place_of_not_overruns (hclamp : Margins clamp lookback minimum) (hvideo : Lasts video v)
    {request : Span α} {s d : ℚ} (hs : 0 ≤ s) (hd : minimum ≤ d) (hasks : Asks request s d)
    (hfits : overruns video request.start (requested request.duration) = false) :
    clamp.place video request = clamp.asRequested request := by
  have hover : ¬ overruns video request.start (requested request.duration) = true := by
    rw [hfits]
    exact Bool.false_ne_true
  rw [overruns, Bool.or_eq_false_iff, decide_eq_false_iff_not, decide_eq_false_iff_not, lt_iff,
    toExact_add, hasks.start, hasks.duration] at hfits
  have hstart : toExact (Scalar.atLeast 0 request.start) = .finite s := by
    rw [toExact_atLeast, toExact_zero, hasks.start, Exact.atLeast_finite, max_eq_right hs]
  have hduration : toExact (Scalar.atLeast clamp.minimum (requested request.duration))
      = .finite d := by
    rw [toExact_atLeast, hclamp.toExact_minimum, hasks.duration, Exact.atLeast_finite,
      max_eq_right hd]
  have hshifted : clamp.shiftedStart video request.start (requested request.duration)
      = Scalar.atLeast 0 request.start := by
    rw [shiftedStart, if_neg hover]
  have hfitted : clamp.fittedDuration video (Scalar.atLeast 0 request.start)
      (requested request.duration) = Scalar.atLeast clamp.minimum (requested request.duration) := by
    have hroom : ¬ video < Scalar.atLeast 0 request.start + requested request.duration := by
      rw [lt_iff, toExact_add, hstart, hasks.duration]
      exact hfits.2
    rw [fittedDuration, if_neg hroom]
  have hroom : ¬ video < Scalar.atLeast 0 request.start
      + Scalar.atLeast clamp.minimum (requested request.duration) := by
    rw [lt_iff, toExact_add, hstart, hduration]
    exact hfits.2
  rw [place_of_lasts hvideo, hshifted, hfitted, settledStart, if_neg hroom, asRequested]

/-- A video is over before a longer time has passed. -/
theorem Lasts.sub_le_zero (hvideo : Lasts video v) {x : α} {m : ℚ} (hx : toExact x = .finite m)
    (hshort : v < m) : toExact (video - x) ≤ .finite 0 := by
  have hbelow : toExact (video - x) ≤ toExact (0 : α) := by
    apply toExact_sub_le
    rw [hvideo.toExact_eq, hx, toExact_zero, Exact.finite_sub_finite, Exact.finite_le_finite]
    linarith
  rwa [toExact_zero] at hbelow

/-- A minimum that exceeds the video makes a caption at its start overrun. -/
theorem Lasts.lt_add (hvideo : Lasts video v) {x y : α} {m : ℚ} (hx : toExact x = .finite 0)
    (hy : toExact y = .finite m) (hshort : v < m) : video < x + y := by
  rw [lt_iff, toExact_add, hx, hy, Exact.finite_add_finite, zero_add, closest_of_toExact hy,
    hvideo.toExact_eq, Exact.finite_lt_finite]
  exact hshort

/-- A request to begin with the video and to last the minimum gets that in every video
that is shorter. -/
theorem place_of_short (hclamp : Margins clamp lookback minimum) (hvideo : Lasts video v)
    {request : Span α} (hasks : Asks request 0 minimum) (hshort : v < minimum) :
    clamp.place video request = clamp.asRequested request := by
  have hstart : Scalar.atLeast 0 request.start = 0 :=
    atLeast_of_le toExact_zero (by rw [hasks.start, Exact.finite_le_finite])
  have hlasts : Scalar.atLeast clamp.minimum (requested request.duration) = clamp.minimum :=
    atLeast_of_le hclamp.toExact_minimum (by rw [hasks.duration, Exact.finite_le_finite])
  have hshifted : clamp.shiftedStart video request.start (requested request.duration) = 0 := by
    have hover : overruns video request.start (requested request.duration) = true := by
      rw [overruns, decide_eq_true (hvideo.lt_add hasks.start hasks.duration hshort),
        Bool.or_true]
    have hlookback : CanPass clamp.lookback :=
      .of_time hclamp.lookback_nonneg hclamp.toExact_lookback
    rw [shiftedStart, if_pos hover]
    exact atLeast_of_le toExact_zero
      (hlookback.sub_le toExact_zero (hvideo.sub_le_zero hasks.duration hshort))
  have hfitted : clamp.fittedDuration video 0 (requested request.duration) = clamp.minimum := by
    have hleft : toExact (video - 0) ≤ .finite minimum :=
      Exact.le_trans ((CanPass.of_time le_rfl toExact_zero).sub_le hvideo.toExact_eq hvideo.le)
        (Exact.finite_le_finite.mpr hshort.le)
    rw [fittedDuration, if_pos (hvideo.lt_add toExact_zero hasks.duration hshort)]
    exact atLeast_of_le hclamp.toExact_minimum hleft
  have hsettled : settledStart video 0 clamp.minimum = 0 := by
    rw [settledStart, if_pos (hvideo.lt_add toExact_zero hclamp.toExact_minimum hshort)]
    exact atLeast_of_le toExact_zero (hvideo.sub_le_zero hclamp.toExact_minimum hshort)
  rw [place_of_lasts hvideo, hshifted, hfitted, hsettled, asRequested, hstart, hlasts]

/-- A caption that does not begin with the video ends before the end of every longer one.
Where the clamp has moved it to the end of the video, it may stand out by one rounding, and
the next number is not nearer than that. -/
theorem not_past_of_lt (hclamp : Margins clamp lookback minimum) (hvideo : Lasts video v)
    {longer : α} {w : ℚ} (hlonger : toExact longer = .finite w) (hvw : v < w) {request : Span α}
    {s d : ℚ} (hs : 0 < s) (hd : minimum ≤ d)
    (hstart : toExact (clamp.place video request).start = .finite s)
    (hduration : toExact (clamp.place video request).duration = .finite d) :
    ¬ .finite w < closest α (.finite (s + d)) := by
  rw [place_of_lasts hvideo] at hstart hduration
  obtain ⟨shifted, hshifted⟩ : ∃ shifted, clamp.shiftedStart video request.start
      (requested request.duration) = shifted := ⟨_, rfl⟩
  obtain ⟨fitted, hfitted⟩ : ∃ fitted, clamp.fittedDuration video shifted
      (requested request.duration) = fitted := ⟨_, rfl⟩
  simp only [hshifted, hfitted] at hstart hduration
  unfold settledStart at hstart
  by_cases hpast : video < shifted + fitted
  · rw [if_pos hpast] at hstart
    have hmoved := toExact_of_atLeast_pos hs hstart
    rw [toExact_sub, hvideo.toExact_eq, hduration, Exact.finite_sub_finite] at hmoved
    have hdv : d ≤ v := by
      by_contra hlong
      have hbelow := hvideo.sub_le_zero hduration (not_le.mp hlong)
      rw [toExact_of_atLeast_pos hs hstart, Exact.finite_le_finite] at hbelow
      linarith
    have hroom := sub_add_le (closest_of_toExact hvideo.toExact_eq) (closest_of_toExact hlonger) hvw
      (hclamp.minimum_nonneg.trans hd) hdv hmoved
    have hrounded := closest_mono (α := α) (Exact.finite_le_finite.mpr hroom)
    rw [closest_of_toExact hlonger] at hrounded
    exact Exact.not_lt_of_le hrounded
  · rw [if_neg hpast] at hstart
    rw [lt_iff, hvideo.toExact_eq, toExact_add, hstart, hduration] at hpast
    intro hfarther
    exact hpast (Exact.lt_of_le_of_lt (Exact.finite_le_finite.mpr hvw.le) hfarther)

/-- **Captions stay where they are.**  A request that is met in a video is met with the
same span in every longer one. -/
theorem place_of_le (hclamp : Margins clamp lookback minimum) (hvideo : Lasts video v)
    {longer : α} {w : ℚ} (hlonger : Lasts longer w) (hvw : v ≤ w) {request : Span α}
    (hmet : (clamp.place video request).differs request = false) :
    clamp.place longer request = clamp.place video request := by
  rw [place_eq_asRequested hclamp hvideo hmet]
  obtain ⟨s, d, hs, hsv, hminimum, hd, hasks, hstart, hduration⟩ :=
    exists_asks hclamp hvideo hmet
  have hend : toExact (request.start + requested request.duration)
      = closest α (.finite (s + d)) := by
    rw [toExact_add, hasks.start, hasks.duration, Exact.finite_add_finite]
  -- Nothing is in the way of a request that begins and ends in time.
  have hfits : s < w → ¬ .finite w < closest α (.finite (s + d)) →
      clamp.place longer request = clamp.asRequested request := by
    intro hbegins hends
    apply place_of_not_overruns hclamp hlonger hs hminimum hasks
    rw [overruns, Bool.or_eq_false_iff, decide_eq_false_iff_not, decide_eq_false_iff_not, le_iff,
      lt_iff, hend, hlonger.toExact_eq, hasks.start, Exact.finite_le_finite, not_le]
    exact ⟨hbegins, hends⟩
  rcases hvw.eq_or_lt with rfl | hlt
  · -- The videos are the same.
    rw [eq_of_toExact hvideo.pos hlonger.toExact_eq hvideo.toExact_eq]
    exact place_eq_asRequested hclamp hvideo hmet
  · rcases hs.eq_or_lt with rfl | hpos
    · have hkeep : closest α (.finite (0 + d)) = .finite d := by
        rw [zero_add]
        exact closest_of_toExact hasks.duration
      rcases le_or_gt d w with hdw | hdw
      · apply hfits hlonger.pos
        rw [hkeep, Exact.finite_lt_finite]
        exact hdw.not_gt
      · have hdm : d = minimum := by
          rcases le_max_iff.mp hd with hdm | hdv
          · exact le_antisymm hdm hminimum
          · linarith
        subst hdm
        exact place_of_short hclamp hlonger hasks hdw
    · exact hfits (hsv.trans_lt hlt)
        (not_past_of_lt hclamp hvideo hlonger.toExact_eq hlt hpos hminimum hstart hduration)

end Place

end Clamp

end Montage
