import Montage.Config
import Montage.Proofs.Numbers.Exact

/-!
# Settings that make sense

`CompilerConfig.fault?_eq_none_iff` says what it takes for settings to have no
fault.  In exact arithmetic their margins are then rational times, none of them
negative.
-/

namespace Montage

namespace CompilerConfig

section General

variable {α : Type} [Scalar α] {config : CompilerConfig α}

/-- Settings have no fault exactly when the clock runs and every margin and
every level is in range. -/
theorem fault?_eq_none_iff :
    config.fault? = none ↔
      config.fps ≠ 0 ∧ (∀ which, isMargin (config.margin which) = true) ∧
        ∀ which, isLevel (config.level which) = true := by
  unfold fault?
  by_cases hfps : config.fps = 0
  · simp [hfps]
  · rw [if_neg hfps]
    cases hmargin : [Margin.overlayLookback, .minOverlay, .backgroundTail].find?
        fun which => !isMargin (config.margin which) with
    | some which =>
        have hbad := List.find?_some hmargin
        constructor
        · intro h
          cases h
        · rintro ⟨_, hmargins, _⟩
          simp [hmargins which] at hbad
    | none =>
        have hmargins : ∀ which, isMargin (config.margin which) = true := by
          intro which
          have hnone := List.find?_eq_none.mp hmargin which (by cases which <;> decide)
          simpa using hnone
        simp only [Option.map_eq_none_iff, List.find?_eq_none, hmargins]
        constructor
        · intro h
          refine ⟨hfps, fun _ => trivial, ?_⟩
          intro which
          simpa using h which (by cases which <;> decide)
        · rintro ⟨_, _, hlevels⟩ which _
          simp [hlevels which]

theorem fps_pos (h : config.fault? = none) : 0 < config.fps :=
  Nat.pos_of_ne_zero (fault?_eq_none_iff.mp h).1

end General

/-- In exact arithmetic the margins of settings without a fault are rational
times that are not negative. -/
theorem exists_margin {config : CompilerConfig Exact} (h : config.fault? = none)
    (which : Margin) : ∃ q : ℚ, 0 ≤ q ∧ config.margin which = .finite q := by
  have hmargin := (fault?_eq_none_iff.mp h).2.1 which
  rw [isMargin, Bool.and_eq_true, Exact.isFinite_iff] at hmargin
  obtain ⟨⟨q, hq⟩, hnonneg⟩ := hmargin
  refine ⟨q, ?_, hq⟩
  simpa [hq] using hnonneg

end CompilerConfig

end Montage
