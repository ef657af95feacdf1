import Montage.Proofs.Compiler

/-!
# Two runs side by side

What a plan, a key or a setting can change is a question about two runs of the
compiler.  `Alike` is the form of the answers: the two runs fail with the same fault,
or both succeed and their results are related.

The footage alone decides whether a plan has a layout.  `Compiler.layoutAs_eq_map`
says so as an equation: a layout is assembled from a schedule, and neither the
settings nor the captions, the music or the platform have a part in that schedule.
Every payload is a layout reshaped (`tracksAs_eq_map`, `framesAs_eq_map`), so equal
layouts give equal payloads.
-/

namespace Montage

/-- Two runs fail with the same fault, or both succeed with related results. -/
inductive Alike {ε β γ : Type} (related : β → γ → Prop) : Except ε β → Except ε γ → Prop
  | fail (fault : ε) : Alike related (.error fault) (.error fault)
  | succeed {result : β} {other : γ} :
      related result other → Alike related (.ok result) (.ok other)

namespace Alike

variable {ε β γ δ ι : Type} {related : β → γ → Prop}

/-- Runs that go on from one computation in two ways. -/
theorem map (outcome : Except ε δ) {f : δ → β} {g : δ → γ} (h : ∀ x, related (f x) (g x)) :
    Alike related (outcome.map f) (outcome.map g) := by
  cases outcome with
  | error fault => exact .fail fault
  | ok x => exact .succeed (h x)

/-- Runs that go on from related results in two ways. -/
theorem map_related {related' : δ → ι → Prop} {outcome : Except ε β} {outcome' : Except ε γ}
    (h : Alike related outcome outcome') {f : β → δ} {g : γ → ι}
    (hrelated : ∀ x y, related x y → related' (f x) (g y)) :
    Alike related' (outcome.map f) (outcome'.map g) := by
  cases h with
  | fail fault => exact .fail fault
  | succeed hresults => exact .succeed (hrelated _ _ hresults)

/-- Where one of the two runs succeeds, so does the other. -/
theorem exists_of_ok {outcome : Except ε γ} {result : β} (h : Alike related (.ok result) outcome) :
    ∃ other, outcome = .ok other ∧ related result other := by
  cases h with
  | succeed hrelated => exact ⟨_, rfl, hrelated⟩

/-- What related results have in common comes out of both runs. -/
theorem map_eq {outcome : Except ε β} {outcome' : Except ε γ} (h : Alike related outcome outcome')
    {f : β → δ} {g : γ → δ} (hcommon : ∀ x y, related x y → g y = f x) :
    outcome'.map g = outcome.map f := by
  cases h with
  | fail fault => rfl
  | succeed hrelated => exact congrArg Except.ok (hcommon _ _ hrelated)

end Alike

namespace Layout

variable {α : Type} [Scalar α]

/-- The schedule of footage in the mode of a key, its faults those of a layout. -/
def footage (modeKey : String) (clips : List (Clip α)) : Except (LayoutFault α) (Schedule α) :=
  (Schedule.estimateClips (Mode.resolve modeKey).profile.transitionDuration clips).mapError .plan

theorem footage_congr {modeKey modeKey' : String} (h : Mode.resolve modeKey = Mode.resolve modeKey')
    (clips : List (Clip α)) : footage modeKey clips = footage modeKey' clips := by
  rw [footage, footage, h]

/-! ## The parts of a layout -/

section Parts

variable (plan : Plan α) (modeKey platformKey : String) (config : CompilerConfig α)
  (schedule : Schedule α)

/-- The clips of a layout are those of the plan, placed at the starts of the schedule. -/
theorem clips_assemble :
    (assemble plan modeKey platformKey config schedule).clips =
      placeClips (Mode.resolve modeKey).profile
        (clipVolume (Mode.resolve modeKey).profile config plan) 0 plan.clips schedule.starts := rfl

/-- The captions of a layout are those of the plan, each placed by its index. -/
theorem overlays_assemble :
    (assemble plan modeKey platformKey config schedule).overlays =
      plan.overlays.zipIdx.map fun (overlay, index) =>
        placeOverlay (Mode.resolve modeKey).profile (Clamp.ofConfig config)
          schedule.videoDuration plan.overlays.length index overlay := rfl

theorem background_assemble :
    (assemble plan modeKey platformKey config schedule).background =
      backgroundOf (Mode.resolve modeKey).profile config schedule.videoDuration := rfl

theorem soundtrack_assemble :
    (assemble plan modeKey platformKey config schedule).soundtrack =
      soundtrackOf (Mode.resolve modeKey).profile config plan := rfl

/-- The warnings of a layout stand in the order mode, platform, captions, length. -/
theorem warnings_assemble :
    (assemble plan modeKey platformKey config schedule).warnings =
      (modeWarning? modeKey).toList ++ (platformWarning? platformKey).toList
        ++ overlayWarnings (Clamp.ofConfig config) schedule.videoDuration plan.overlays
        ++ (durationWarning? (Platform.resolve platformKey).profile
          schedule.videoDuration).toList := rfl

end Parts

end Layout

namespace Compiler

variable {α : Type} [Scalar α] (compiler : Compiler α) (plan : Plan α)
  (modeKey platformKey : String)

/-- A layout is assembled from the schedule of the footage. -/
theorem layoutAs_eq_map :
    compiler.layoutAs plan modeKey platformKey = (Layout.footage modeKey plan.clips).map
      (Layout.assemble plan modeKey platformKey compiler.config) := by
  rw [layoutAs, Layout.computeAs, Layout.schedule, compiler.sound, Layout.footage]
  cases Schedule.estimateClips ((Mode.resolve modeKey).profile (α := α)).transitionDuration
      plan.clips with
  | error fault => rfl
  | ok schedule => rfl

/-- The payload in seconds is made from the layout alone. -/
theorem tracksAs_eq_map :
    compiler.tracksAs plan modeKey platformKey
      = (compiler.layoutAs plan modeKey platformKey).map compiler.tracksOf := by
  unfold tracksAs
  cases compiler.layoutAs plan modeKey platformKey with
  | error fault => rfl
  | ok layout => rfl

/-- The payload in frames is made from the layout alone. -/
theorem framesAs_eq_map :
    compiler.framesAs plan modeKey platformKey
      = (compiler.layoutAs plan modeKey platformKey).map compiler.framesOf := by
  unfold framesAs
  cases compiler.layoutAs plan modeKey platformKey with
  | error fault => rfl
  | ok layout => rfl

/-- The text of a payload is made from the layout alone. -/
theorem textAs_eq_map (compiler : Compiler Float) (plan : Plan Float)
    (modeKey platformKey : String) (backend : Backend) :
    compiler.textAs plan modeKey platformKey backend
      = (compiler.layoutAs plan modeKey platformKey).map (compiler.textOf · backend) := by
  unfold textAs
  cases compiler.layoutAs plan modeKey platformKey with
  | error fault => rfl
  | ok layout => rfl

end Compiler

end Montage
