import Montage.Proofs.Compiler
import Montage.Proofs.Layout

/-!
# Where captions are placed

`Clamp.place_fits` is about videos whose length is a rational time.  A clamp may as well be
told that a video has a negative length, an infinite one, or none that is a number, and takes
it for a video that does not last then (`Exact.lasting`).  So a clamp with finite margins
answers every request in every video with a span of rational times, and `Clamp.place_inside`
says where it lies.  The captions of a layout are such spans.
-/

namespace Montage

/-- How long a video lasts that is said to have some length: not at all, if the length is
negative or not finite. -/
def Exact.lasting : Exact → ℚ
  | .finite length => max length 0
  | _ => 0

/-- No video lasts a negative time. -/
theorem Exact.lasting_nonneg (video : Exact) : 0 ≤ video.lasting := by
  cases video with
  | finite length => exact le_max_right length 0
  | _ => exact le_rfl

theorem Exact.lasting_finite {length : ℚ} (h : 0 ≤ length) :
    (Exact.finite length).lasting = length :=
  max_eq_left h

/-- A number that is at least zero, and finite, is a rational that is not negative. -/
theorem Exact.exists_atLeast_zero {x : Exact}
    (h : Scalar.isFinite (Scalar.atLeast 0 x) = true) :
    ∃ q : ℚ, 0 ≤ q ∧ Scalar.atLeast 0 x = .finite q := by
  cases x with
  | finite q => exact ⟨max 0 q, le_max_left 0 q, by simp⟩
  | infinite s =>
      cases s with
      | true => exact ⟨0, le_rfl, rfl⟩
      | false => cases h
  | nan => exact ⟨0, le_rfl, rfl⟩

namespace Clamp

/-- What the clamp makes of the length of a video is how long it lasts. -/
theorem reliable_eq_lasting (video : Exact) : reliable video = .finite video.lasting := by
  cases video with
  | finite length =>
      rw [reliable, if_pos (Exact.isFinite_finite length), Exact.ofNat_eq, Exact.atLeast_finite,
        Nat.cast_zero, max_comm]
      rfl
  | infinite s => exact if_neg Bool.false_ne_true
  | nan => exact if_neg Bool.false_ne_true

/-- A video counts for as long as it lasts. -/
theorem place_lasting (clamp : Clamp Exact) (video : Exact) (request : Span Exact) :
    clamp.place video request = clamp.place (.finite video.lasting) request := by
  simp only [place, reliable_eq_lasting, Exact.lasting_finite video.lasting_nonneg]

/-- Margins that come out finite are rational times. -/
theorem exists_ofMargins {lookback minimum : Exact}
    (hlookback : Scalar.isFinite (ofMargins lookback minimum).lookback = true)
    (hminimum : Scalar.isFinite (ofMargins lookback minimum).minimum = true) :
    ∃ l m : ℚ, 0 ≤ l ∧ 0 ≤ m ∧ ofMargins lookback minimum = exact l m := by
  obtain ⟨l, hl, hlEq⟩ := Exact.exists_atLeast_zero hlookback
  obtain ⟨m, hm, hmEq⟩ := Exact.exists_atLeast_zero hminimum
  exact ⟨l, m, hl, hm, by rw [ofMargins, hlEq, hmEq, exact]⟩

/-- **Every caption is placed inside the video.**  In exact arithmetic, a clamp that is made
with any margins, and ends up with finite ones, gives every request a span of rational times,
whatever the request and the length of the video are, NaN and the infinities included.  The
span does not begin before the video, lasts the minimum at least and ends with the video at
the latest; where the video is shorter than the minimum, the span begins with the video and
lasts the minimum.

So every caption of every layout is placed inside its video. -/
theorem place_inside :
    (∀ (lookback minimum video : Exact) (request : Span Exact),
      Scalar.isFinite (ofMargins lookback minimum).lookback = true →
        Scalar.isFinite (ofMargins lookback minimum).minimum = true →
          ∃ m s d : ℚ, (ofMargins lookback minimum).minimum = .finite m ∧
            (ofMargins lookback minimum).place video request = ⟨.finite s, .finite d⟩ ∧
              Fits m video.lasting s d) ∧
      ∀ (plan : Plan Exact) (modeKey platformKey : String) (config : CompilerConfig Exact)
        (layout : Layout Exact), Layout.computeAs plan modeKey platformKey config = .ok layout →
          ∃ m v : ℚ, config.minOverlay = .finite m ∧ layout.videoDuration = .finite v ∧ 0 ≤ v ∧
            layout.overlays.length = plan.overlays.length ∧
            ∀ placed ∈ layout.overlays, ∃ s d : ℚ, placed.start = .finite s ∧
              placed.duration = .finite d ∧ Fits m v s d := by
  constructor
  · intro lookback minimum video request hlookback hminimum
    obtain ⟨l, m, hl, -, hclamp⟩ := exists_ofMargins hlookback hminimum
    obtain ⟨s, d, hplace, hfits⟩ := place_fits m hl video.lasting_nonneg request
    rw [hclamp, place_lasting]
    exact ⟨m, s, d, rfl, hplace, hfits⟩
  · intro plan modeKey platformKey config layout h
    obtain ⟨overlap, lengths, run⟩ := Layout.exists_run h
    have hvideo := run.video_eq
    have hnonneg := run.stop_last_pos.le
    obtain ⟨m, -, hminimum, hplaced⟩ := Layout.exists_fits h hvideo hnonneg
    have hcount : layout.overlays.length = plan.overlays.length := by
      obtain ⟨-, _, -, rfl⟩ := Layout.computeAs_eq_ok_iff.mp h
      simp [Layout.assemble]
    exact ⟨m, _, hminimum, hvideo, hnonneg, hcount, hplaced⟩

/-- Half a second for both margins. -/
def halfSecond : Clamp Exact := ofMargins (.finite (1 / 2)) (.finite (1 / 2))

/-- A caption that begins nowhere and never ends, in a video without a length and in one of
eleven seconds, and the captions of a plan. -/
theorem place_inside_of_no_numbers :
    (∃ m s d : ℚ, halfSecond.minimum = .finite m ∧
        halfSecond.place .nan ⟨.nan, .infinite false⟩ = ⟨.finite s, .finite d⟩ ∧
          Fits m (Exact.lasting .nan) s d) ∧
      (∃ m s d : ℚ, halfSecond.minimum = .finite m ∧
        halfSecond.place (.finite 11) ⟨.infinite true, .nan⟩ = ⟨.finite s, .finite d⟩ ∧
          Fits m (Exact.lasting (.finite 11)) s d) ∧
      ∃ layout, Layout.computeAs (.sample Exact) "vlog" "tiktok" .standard = .ok layout ∧
        ∃ m v : ℚ, layout.videoDuration = .finite v ∧ layout.overlays.length = 2 ∧
          ∀ placed ∈ layout.overlays, ∃ s d : ℚ, placed.start = .finite s ∧
            placed.duration = .finite d ∧ Fits m v s d := by
  obtain ⟨hclamp, hlayouts⟩ := place_inside
  have hcompiles : (Layout.computeAs (.sample Exact) "vlog" "tiktok" .standard).toOption.any
      (fun _ => true) = true := by
    decide +kernel
  obtain ⟨layout, hlayout, -⟩ := Compiler.exists_of_any hcompiles
  obtain ⟨m, v, -, hvideo, -, hcount, hplaced⟩ := hlayouts _ _ _ _ layout hlayout
  have hhalf : ∀ video request, ∃ m s d : ℚ, halfSecond.minimum = .finite m ∧
      halfSecond.place video request = ⟨.finite s, .finite d⟩ ∧ Fits m video.lasting s d :=
    fun video request => hclamp _ _ video request (by decide +kernel) (by decide +kernel)
  exact ⟨hhalf .nan _, hhalf (.finite 11) _, layout, hlayout, m, v, hvideo, hcount, hplaced⟩

end Clamp

end Montage
